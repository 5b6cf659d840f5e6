import StrongAuth.Text.Blank

set_option autoImplicit false

namespace StrongAuth

/-- Variables and their values; the first one of a name counts. -/
abbrev Environment := List (String × String)

namespace Environment

def find? (env : Environment) (name : String) : Option String :=
  (List.find? (fun p => p.1 == name) env).map (·.2)

end Environment

namespace Flag

def ofText? (text : String) : Option Bool :=
  let word := Text.lower (Text.trim text)
  if ["1", "true", "yes", "on"].contains word then some true
  else if ["0", "false", "no", "off"].contains word then some false
  else none

def read (value : Option String) (default : Bool) : Bool :=
  (value.bind ofText?).getD default

def ofEnvironment (env : Environment) (name : String) (default : Bool) : Bool :=
  read (env.find? name) default

end Flag

end StrongAuth
