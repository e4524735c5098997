namespace FirmwareLink.Text

def list (items : List String) : String := "[" ++ ", ".intercalate items ++ "]"

def option : Option String → String
  | none => "None"
  | some value => "Some(" ++ value ++ ")"

def field (name value : String) : String := name ++ ": " ++ value

def record (name : String) (fields : List String) : String :=
  name ++ " \x7b " ++ ", ".intercalate fields ++ " \x7d"

def more : String := ".."

def flag (value : Bool) : String := if value then "true" else "false"

end FirmwareLink.Text
