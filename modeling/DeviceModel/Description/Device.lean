import DeviceModel.Description.Param

namespace DeviceModel

/-- How much of the device a client sees when it asks for nothing in particular. -/
inductive DetailLevel where
  | full
  | subscriptions
  | minimal
  | commands
  | none
  deriving DecidableEq, Repr

namespace DetailLevel

def names : List String := ["FULL", "SUBSCRIPTIONS", "MINIMAL", "COMMANDS", "NONE"]

def name : DetailLevel → String
  | .full => "FULL"
  | .subscriptions => "SUBSCRIPTIONS"
  | .minimal => "MINIMAL"
  | .commands => "COMMANDS"
  | .none => "NONE"

def ofIndex? : Nat → Option DetailLevel
  | 0 => some .full
  | 1 => some .subscriptions
  | 2 => some .minimal
  | 3 => some .commands
  | 4 => some .none
  | _ => Option.none

end DetailLevel

structure Settings where
  slot : UInt32
  detailLevel : DetailLevel
  accessScopes : List String
  defaultScope : Option String
  multiSet : Bool
  subscriptions : Bool
  deriving Repr

structure Menu where
  oid : String
  name : Polyglot
  hidden : Bool
  disabled : Bool
  params : List String
  commands : List String
  clientHints : Entries String
  deriving Repr

structure MenuGroup where
  oid : String
  name : Polyglot
  menus : List Menu
  deriving Repr

structure LanguagePack where
  id : String
  name : String
  words : Entries String
  deriving Repr

namespace Description

structure Device where
  settings : Settings
  constraints : Entries Constraint
  params : Entries Param
  commands : Entries Param
  menuGroups : List MenuGroup
  languagePacks : List LanguagePack
  deriving Repr

end Description

end DeviceModel
