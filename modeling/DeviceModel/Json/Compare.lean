import DeviceModel.Json

namespace DeviceModel.Json

/-- A number as a signed numerator and a denominator. -/
def ratio? : Json → Option (Int × Nat)
  | .int i => some (i, 1)
  | .float x => x.ratio?.map fun (n, d) => (if x.isNegative then -(n : Int) else n, d)
  | _ => none

def isNumber (v : Json) : Bool := v.ratio?.isSome

def isInteger (v : Json) : Bool :=
  match v.ratio? with
  | some (n, d) => n % d = 0
  | none => false

/-- Whether the first of two numbers is the smaller. -/
def isLess (a b : Json) : Bool :=
  match a.ratio?, b.ratio? with
  | some (n, d), some (n', d') => n * d' < n' * d
  | _, _ => false

def sameNumber (a b : Json) : Bool :=
  match a.ratio?, b.ratio? with
  | some (n, d), some (n', d') => n * d' = n' * d
  | _, _ => false

mutual

def same : Json → Json → Bool
  | .null, .null => true
  | .bool a, .bool b => a == b
  | .string a, .string b => a == b
  | .array a, .array b => sameItems a b
  | .object a, .object b => a.length == b.length && sameMembers a b
  | a, b => sameNumber a b

def sameItems : List Json → List Json → Bool
  | [], [] => true
  | a :: as, b :: bs => same a b && sameItems as bs
  | _, _ => false

/-- Each member of the first is in the second. -/
def sameMembers : List (String × Json) → List (String × Json) → Bool
  | [], _ => true
  | (k, a) :: rest, b =>
    (match b.lookup k with
      | some v => same a v
      | none => false) && sameMembers rest b

end

mutual

/-- Arrays and objects on the longest way down. -/
def depth : Json → Nat
  | .array items => depthItems items + 1
  | .object members => depthMembers members + 1
  | _ => 0

def depthItems : List Json → Nat
  | [] => 0
  | v :: rest => max (depth v) (depthItems rest)

def depthMembers : List (String × Json) → Nat
  | [] => 0
  | (_, v) :: rest => max (depth v) (depthMembers rest)

end

end DeviceModel.Json
