import LaneBus.Text

/-! # Environments

The variables that a process sees.  A variable that is set to nothing is set.
They are kept as a list of texts `name=value` in which a name is looked for up to
an equals sign, so a name with an equals sign of its own also finds the rest of a
value that begins as the name goes on.
-/
namespace LaneBus

/-- The values of the variables that are set. -/
abbrev Environment := String → Option String

namespace Environment

/-- The environment with a value for a variable, unless it is set already. -/
def supply (env : Environment) (name value : String) : Environment := fun other =>
  if other = name then some ((env name).getD value) else env other

/-- The environment in which the listed variables are set. -/
def ofList (settings : List (String × String)) : Environment := fun name => settings.lookup name

/-- What a name is found to stand for. -/
def find? (env : Environment) (name : String) : Option String :=
  match name.toList.dropWhile (· != '=') with
  | [] => env name
  | _ :: begun =>
    (env (String.ofList (name.toList.takeWhile (· != '=')))).bind
      (Text.dropFront? (String.ofList (begun ++ ['='])))

theorem supply_of_set {env : Environment} {name old : String} (h : env name = some old)
    (value : String) : env.supply name value = env := by
  funext other
  by_cases ho : other = name <;> simp [supply, ho, h]

theorem supply_self_of_unset {env : Environment} {name : String} (h : env name = none)
    (value : String) : env.supply name value name = some value := by
  simp [supply, h]

end Environment
end LaneBus
