import ThrowCatch.Number.Reading
import ThrowCatch.Settings.Basic
import ThrowCatch.Text.Lower

/-!
Settings from environment variables. Each field that holds a single value has
a variable of its own; lists cannot be set this way.
-/

namespace ThrowCatch.Settings

inductive FieldKind
  | whole | decimal | truth | text | many
  deriving DecidableEq, Repr

def fieldKind (key : String) : FieldKind :=
  if ["workers", "max_files"].contains key then .whole
  else if key == "max_file_size_mb" then .decimal
  else if ["allow_hidden_files", "follow_symlinks", "strict_parse"].contains key then .truth
  else if ["exclude_patterns", "extensions", "error_supertypes"].contains key then .many
  else .text

def variableName (key : String) : String :=
  "ERRORFLOW_" ++ String.ofList (key.toList.map Char.toUpper)

/-- Reads the text of a variable as a field wants it. -/
def readAs (kind : FieldKind) (text : String) : Except Fault (Option Value) :=
  match kind with
  | .many => .ok none
  | .text => .ok (some (.str text))
  | .whole =>
    match Reading.int? text with
    | some n => .ok (some (.int n))
    | none => .error (.badInteger text)
  | .decimal =>
    match Reading.float? text with
    | some x => .ok (some (.float x))
    | none => .error (.badDecimal text)
  | .truth =>
    let word := Text.lower text
    if ["true", "1", "yes", "on"].contains word then .ok (some (.bool true))
    else if ["false", "0", "no", "off"].contains word then .ok (some (.bool false))
    else .error (.badTruth text)

/-- The fields that the environment sets, in the order of the fields. -/
def ofEnvironment (env : List (String × String)) : Except Fault (List (String × Value)) :=
  keys.foldlM (fun found key =>
    match env.find? fun (k, _) => k == variableName key with
    | none => .ok found
    | some (_, text) =>
      match readAs (fieldKind key) text with
      | .ok (some v) => .ok (found ++ [(key, v)])
      | .ok none => .ok found
      | .error e =>
        .error (.problem (.configuration ("Invalid " ++ variableName key ++ ": " ++ e.message)))) []

end ThrowCatch.Settings
