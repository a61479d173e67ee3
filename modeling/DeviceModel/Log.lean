import DeviceModel.Text.Split

namespace DeviceModel.Log

inductive Level where
  | debug
  | info
  | warn
  deriving DecidableEq, Repr

namespace Level

/-- Names of levels are padded to the same width. -/
def label : Level → String
  | .debug => "DEBUG"
  | .info => "INFO "
  | .warn => "WARN "

end Level

structure Record where
  level : Level
  target : String
  text : String
  deriving DecidableEq, Repr

namespace Record

/-- Lines of a text after its first stand four places in. -/
def line (r : Record) : String :=
  "[" ++ r.level.label ++ " " ++ r.target ++ "] " ++ Text.join "\n    " (Text.split '\n' r.text)

end Record

end DeviceModel.Log
