import DeviceModel.Entries
import DeviceModel.Number.Layout
import DeviceModel.Text.Split

namespace DeviceModel.Cpp

open Number

/-- Three octal digits, for a character below 512. -/
def octal (n : Nat) : List Char :=
  [n / 64 % 8, n / 8 % 8, n % 8].map fun d => Char.ofNat ('0'.toNat + d)

def escape (c : Char) : List Char :=
  match c with
  | '"' => ['\\', '"']
  | '\\' => ['\\', '\\']
  | '\n' => ['\\', 'n']
  | '\r' => ['\\', 'r']
  | '\t' => ['\\', 't']
  | c => if c.toNat < 0x20 then '\\' :: octal c.toNat else [c]

/-- A string literal. Control characters are escaped, so that it stays on its line. -/
def quote (s : String) : String := String.ofList ('"' :: s.toList.flatMap escape ++ ['"'])

/-- Fewest digits that read back; with an exponent from 10^16 up and below 10^-4. -/
def floats : Layout := ⟨fun lead => -4 ≤ lead && lead < 16, true, false, .up⟩

def float (x : Single) : String := floats.text .single x.value ++ "f"

def int (i : Int32) : String := toString i.toInt

def bool (b : Bool) : String := if b then "true" else "false"

def braced (items : List String) : String := "\x7b" ++ Text.join ", " items ++ "\x7d"

def strings (items : List String) : String := braced (items.map quote)

def pairs (entries : Entries String) : String :=
  braced (entries.map fun (k, v) => braced [quote k, quote v])

/-- A missing string is an empty one. -/
def optional (s : Option String) : String := quote (s.getD "")

end DeviceModel.Cpp
