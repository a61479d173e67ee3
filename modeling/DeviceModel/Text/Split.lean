namespace DeviceModel.Text

def fields (sep : Char) : List Char → List (List Char)
  | [] => [[]]
  | c :: cs =>
    match fields sep cs with
    | [] => [[c]]
    | f :: fs => if c = sep then [] :: f :: fs else (c :: f) :: fs

def split (sep : Char) (s : String) : List String := (fields sep s.toList).map String.ofList

def join (sep : String) (parts : List String) : String := sep.intercalate parts

/-- Text before and after the last separator. -/
def splitLast? (sep : Char) (s : String) : Option (String × String) :=
  match (fields sep s.toList).reverse with
  | last :: before :: rest =>
    some (join (String.singleton sep) (((before :: rest).reverse).map String.ofList),
      String.ofList last)
  | _ => none

end DeviceModel.Text
