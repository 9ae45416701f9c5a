import ThrowCatch.Number.Shortest
import ThrowCatch.Text.Quoted

/-!
Values that come from outside and whose shape nobody has checked yet: settings
read from files, the environment and the command line, and the documents the
reports are written as.
-/

namespace ThrowCatch

/-- A calendar date. -/
structure Date where
  year : Nat
  month : Nat
  day : Nat
  deriving DecidableEq, Repr

/-- A time of day, to the microsecond. -/
structure Clock where
  hour : Nat
  minute : Nat
  second : Nat
  micro : Nat
  deriving DecidableEq, Repr

/-- A point in time as a settings file can name it. The offset from the prime
meridian is in minutes. -/
inductive Moment
  | date (d : Date)
  | time (t : Clock)
  | stamp (d : Date) (t : Clock) (offset : Option Int)
  deriving DecidableEq, Repr

inductive Value
  | null
  | bool (b : Bool)
  | int (n : Int)
  | float (x : Double)
  | str (s : String)
  | list (items : List Value)
  | table (entries : List (String × Value))
  | moment (m : Moment)
  deriving Repr, Inhabited

namespace Moment

/-- At least `width` digits. -/
def padded (width n : Nat) : String :=
  let digits := Nat.toDigits 10 n
  String.ofList (List.replicate (width - digits.length) '0' ++ digits)

def dateText (d : Date) : String :=
  padded 4 d.year ++ "-" ++ padded 2 d.month ++ "-" ++ padded 2 d.day

def clockText (t : Clock) : String :=
  padded 2 t.hour ++ ":" ++ padded 2 t.minute ++ ":" ++ padded 2 t.second ++
    (if t.micro = 0 then "" else "." ++ padded 6 t.micro)

def offsetText (minutes : Int) : String :=
  (if minutes < 0 then "-" else "+") ++ padded 2 (minutes.natAbs / 60) ++ ":" ++
    padded 2 (minutes.natAbs % 60)

def text : Moment → String
  | .date d => dateText d
  | .time t => clockText t
  | .stamp d t none => dateText d ++ " " ++ clockText t
  | .stamp d t (some o) => dateText d ++ " " ++ clockText t ++ offsetText o

def kindName : Moment → String
  | .date _ => "datetime.date"
  | .time _ => "datetime.time"
  | .stamp .. => "datetime.datetime"

/-- The parts of a time of day, without seconds and microseconds that are
zero. -/
def clockParts (t : Clock) : List Nat :=
  [t.hour, t.minute] ++
    (if t.second = 0 ∧ t.micro = 0 then [] else [t.second]) ++
    (if t.micro = 0 then [] else [t.micro])

/-- The offset as a number of days and seconds, the seconds not negative. -/
def offsetParts (minutes : Int) : String :=
  let days := minutes.fdiv 1440
  let seconds := (minutes - days * 1440) * 60
  let day := if days = 0 then [] else ["days=" ++ toString days]
  let second := if seconds = 0 then [] else ["seconds=" ++ toString seconds]
  Text.join ", " (day ++ second)

/-- The moment by its parts, as it appears inside lists and tables. -/
def detail (m : Moment) : String :=
  let parts := match m with
    | .date d => [d.year, d.month, d.day]
    | .time t => clockParts t
    | .stamp d t _ => [d.year, d.month, d.day] ++ clockParts t
  let zone := match m with
    | .stamp _ _ (some o) =>
      if o = 0 then ["tzinfo=datetime.timezone.utc"]
      else ["tzinfo=datetime.timezone(datetime.timedelta(" ++ offsetParts o ++ "))"]
    | _ => []
  m.kindName ++ "(" ++ Text.join ", " (parts.map toString ++ zone) ++ ")"

end Moment

namespace Value

mutual

/-- The text of a value inside another value: strings are quoted. -/
def shown : Value → String
  | .null => "None"
  | .bool b => if b then "True" else "False"
  | .int n => toString n
  | .float x => x.text
  | .str s => Text.quoted s
  | .list items => "[" ++ Text.join ", " (shownItems items) ++ "]"
  | .table entries => "\x7b" ++ Text.join ", " (shownEntries entries) ++ "\x7d"
  | .moment m => m.detail

def shownItems : List Value → List String
  | [] => []
  | v :: vs => shown v :: shownItems vs

def shownEntries : List (String × Value) → List String
  | [] => []
  | (k, v) :: kvs => (Text.quoted k ++ ": " ++ shown v) :: shownEntries kvs

end

/-- The text of a value on its own: a string is itself. -/
def text : Value → String
  | .str s => s
  | .moment m => m.text
  | v => v.shown

/-- The name of a value's kind, as messages use it. -/
def kindName : Value → String
  | .null => "NoneType"
  | .bool _ => "bool"
  | .int _ => "int"
  | .float _ => "float"
  | .str _ => "str"
  | .list _ => "list"
  | .table _ => "dict"
  | .moment m => m.kindName

/-- Whether a value counts as true: neither absent nor zero nor empty. -/
def truthy : Value → Bool
  | .null => false
  | .bool b => b
  | .int n => n != 0
  | .float (.finite _ m _) => m != 0
  | .float _ => true
  | .str s => !s.toList.isEmpty
  | .list items => !items.isEmpty
  | .table entries => !entries.isEmpty
  | .moment _ => true

def isText (s : String) : Value → Bool
  | .str t => t == s
  | _ => false

/-- Whether a value can be a member of a set. -/
def isHashable : Value → Bool
  | .list _ => false
  | .table _ => false
  | _ => true

/-- The number a value stands for. A truth value is one or zero. -/
def number? : Value → Option Number
  | .bool b => some (.int (if b then 1 else 0))
  | .int n => some (.int n)
  | .float x => some (.float x)
  | _ => none

/-- The members a value gives when it is gone through one by one: the items of
a list, the characters of a string, the keys of a table. -/
def members? : Value → Option (List Value)
  | .str s => some (s.toList.map fun c => .str (String.singleton c))
  | .list items => some items
  | .table entries => some (entries.map fun (k, _) => .str k)
  | _ => none

def field? (entries : List (String × Value)) (key : String) : Option Value :=
  (entries.find? fun (k, _) => k == key).map (·.2)

/-- Sets an entry: in its place when the key is there, and otherwise at the
end. -/
def put (entries : List (String × Value)) (key : String) (v : Value) :
    List (String × Value) :=
  match entries with
  | [] => [(key, v)]
  | (k, w) :: rest => if k == key then (k, v) :: rest else (k, w) :: put rest key v

/-- Sets all entries of the second table in the first one. -/
def merge (base top : List (String × Value)) : List (String × Value) :=
  top.foldl (fun kvs (k, v) => put kvs k v) base

-- The handler for `DecidableEq` does not take values that stand inside lists.
mutual

def same : Value → Value → Bool
  | .null, .null => true
  | .bool a, .bool b => a == b
  | .int m, .int n => m == n
  | .float x, .float y => x == y
  | .str s, .str t => s == t
  | .list vs, .list ws => sameItems vs ws
  | .table kvs, .table lws => sameEntries kvs lws
  | .moment m, .moment n => m == n
  | _, _ => false

def sameItems : List Value → List Value → Bool
  | [], [] => true
  | v :: vs, w :: ws => same v w && sameItems vs ws
  | _, _ => false

def sameEntries : List (String × Value) → List (String × Value) → Bool
  | [], [] => true
  | (k, v) :: kvs, (l, w) :: lws => k == l && same v w && sameEntries kvs lws
  | _, _ => false

end

mutual

theorem same_iff (v w : Value) : same v w = true ↔ v = w := by
  cases v with
  | list vs => cases w <;> simp [same, sameItems_iff vs]
  | table kvs => cases w <;> simp [same, sameEntries_iff kvs]
  | _ => cases w <;> simp [same]

theorem sameItems_iff (vs ws : List Value) : sameItems vs ws = true ↔ vs = ws := by
  cases vs with
  | nil => cases ws <;> simp [sameItems]
  | cons v vs => cases ws <;> simp [sameItems, same_iff v, sameItems_iff vs]

theorem sameEntries_iff (kvs lws : List (String × Value)) :
    sameEntries kvs lws = true ↔ kvs = lws := by
  cases kvs with
  | nil => cases lws <;> simp [sameEntries]
  | cons entry kvs =>
      obtain ⟨k, v⟩ := entry
      cases lws <;> simp [sameEntries, same_iff v, sameEntries_iff kvs, Prod.ext_iff]

end

instance : DecidableEq Value := fun v w => decidable_of_iff _ (same_iff v w)

end Value

end ThrowCatch
