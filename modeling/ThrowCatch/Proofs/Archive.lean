import ThrowCatch.Proofs.Entries
import ThrowCatch.Proofs.JsonReading
import ThrowCatch.Render.Format

/-!
The archive. Reports and flows are written as JSON documents, and nothing of
them is lost there: the text is a document of the value they stand for and of
no other, and from the value alone they can be told again. A decoder for each
kind of record looks its fields up by name, so it does not depend on their
order.
-/

namespace ThrowCatch

/-! ### Decoders -/

namespace Value

def text? : Value → Option String
  | .str s => some s
  | _ => none

def whole? : Value → Option Int
  | .int n => some n
  | _ => none

/-- The entry of a table under a name. -/
def member? (v : Value) (key : String) : Option Value :=
  match v with
  | .table entries => field? entries key
  | _ => none

/-- The items of a list, each decoded. -/
def each? {α : Type} (decode : Value → Option α) : Value → Option (List α)
  | .list items => items.mapM decode
  | _ => none

@[simp] theorem text?_str (s : String) : (Value.str s).text? = some s := rfl

@[simp] theorem whole?_int (n : Int) : (Value.int n).whole? = some n := rfl

@[simp] theorem member?_table (entries : List (String × Value)) (key : String) :
    (Value.table entries).member? key = field? entries key := rfl

/-- A list of encoded records is decoded record by record. -/
theorem each?_map {α : Type} {encode : α → Value} {decode : Value → Option α}
    (h : ∀ x, decode (encode x) = some x) (xs : List α) :
    (Value.list (xs.map encode)).each? decode = some xs := by
  change (xs.map encode).mapM decode = some xs
  induction xs with
  | nil => rfl
  | cons x xs ih =>
      rw [List.map_cons, List.mapM_cons, h, ih]
      rfl

end Value

def Location.ofValue? (v : Value) : Option Location := do
  let file ← (← v.member? "file").text?
  let line ← (← v.member? "line").whole?
  return ⟨file, line⟩

def Declaration.ofValue? (v : Value) : Option Declaration := do
  let name ← (← v.member? "name").text?
  let supertype ← (← v.member? "supertype").text?
  let location ← Location.ofValue? (← v.member? "location")
  return ⟨name, supertype, location⟩

def SiteKind.ofValue? (v : Value) : Option SiteKind := do
  (SiteKind.ofText (← v.text?)).toOption

def Site.ofValue? (v : Value) : Option Site := do
  let name ← (← v.member? "name").text?
  let kind ← SiteKind.ofValue? (← v.member? "kind")
  let location ← Location.ofValue? (← v.member? "location")
  return ⟨name, kind, location⟩

/-- Only a file that failed has an entry for the failure. -/
def FileReport.ofValue? (v : Value) : Option FileReport := do
  let path ← (← v.member? "path").text?
  let defined ← (← v.member? "defined").each? Declaration.ofValue?
  let raised ← (← v.member? "raised").each? Site.ofValue?
  let intercepted ← (← v.member? "intercepted").each? Site.ofValue?
  let unclassified ← (← v.member? "unclassified_raises").whole?
  let failure ← match v.member? "failure" with
    | some reason => reason.text?.map some
    | none => some none
  return ⟨path, defined, raised, intercepted, unclassified, failure⟩

/-- The skipped files are among all files, so they need not be read. -/
def Analysis.ofValue? (v : Value) : Option Analysis := do
  let files ← (← v.member? "files").each? FileReport.ofValue?
  return ⟨files⟩

def Flow.ofValue? (v : Value) : Option Flow := do
  let name ← (← v.member? "error").text?
  let definedIn ← match ← v.member? "defined_in" with
    | .null => some none
    | path => path.text?.map some
  let raisedIn ← (← v.member? "raised_in").each? Value.text?
  let interceptedIn ← (← v.member? "intercepted_in").each? Value.text?
  let unguardedIn ← (← v.member? "unguarded_in").each? Value.text?
  let duplicateDefinitions ← (← v.member? "duplicate_definitions").each? Value.text?
  return ⟨name, definedIn, raisedIn, interceptedIn, unguardedIn, duplicateDefinitions⟩

theorem Location.ofValue?_toValue (l : Location) : ofValue? l.toValue = some l := by
  simp [toValue, ofValue?, Value.field?_cons]

theorem Declaration.ofValue?_toValue (d : Declaration) : ofValue? d.toValue = some d := by
  simp [toValue, ofValue?, Value.field?_cons, Location.ofValue?_toValue]

theorem SiteKind.ofText_text (k : SiteKind) : ofText k.text = .ok k := by
  cases k <;> decide

theorem Site.ofValue?_toValue (s : Site) : ofValue? s.toValue = some s := by
  simp [toValue, ofValue?, Value.field?_cons, Location.ofValue?_toValue, SiteKind.ofValue?,
    SiteKind.ofText_text, Except.toOption]

theorem FileReport.ofValue?_toValue (r : FileReport) : ofValue? r.toValue = some r := by
  obtain ⟨path, defined, raised, intercepted, unclassified, failure⟩ := r
  cases failure <;>
    simp [toValue, ofValue?, Value.field?_cons, Value.field?_nil,
      Value.each?_map Declaration.ofValue?_toValue, Value.each?_map Site.ofValue?_toValue]

theorem Analysis.ofValue?_toValue (a : Analysis) : ofValue? a.toValue = some a := by
  simp [toValue, ofValue?, Value.field?_cons, Value.each?_map FileReport.ofValue?_toValue]

theorem Flow.ofValue?_toValue (f : Flow) : ofValue? f.toValue = some f := by
  obtain ⟨name, definedIn, raisedIn, interceptedIn, unguardedIn, duplicateDefinitions⟩ := f
  cases definedIn <;>
    simp [toValue, toEntries, ofValue?, Value.field?_cons, Value.each?_map Value.text?_str]

/-! ### Values of records -/

namespace Value

attribute [simp] Recordable.null Recordable.int Recordable.str

theorem Recordable.listMap {α : Type} {encode : α → Value} (h : ∀ x, (encode x).Recordable)
    (xs : List α) : (Value.list (xs.map encode)).Recordable := by
  refine .list fun v hv => ?_
  obtain ⟨x, -, rfl⟩ := List.mem_map.mp hv
  exact h x

end Value

theorem Location.recordable_toValue (l : Location) : l.toValue.Recordable := by
  refine .table (by simp) ?_
  simp

theorem Declaration.recordable_toValue (d : Declaration) : d.toValue.Recordable := by
  refine .table (by simp) ?_
  simp [Location.recordable_toValue]

theorem Site.recordable_toValue (s : Site) : s.toValue.Recordable := by
  refine .table (by simp) ?_
  simp [Location.recordable_toValue]

theorem FileReport.recordable_toValue (r : FileReport) : r.toValue.Recordable := by
  obtain ⟨path, defined, raised, intercepted, unclassified, failure⟩ := r
  have hdefined := Value.Recordable.listMap Declaration.recordable_toValue defined
  have hsites := Value.Recordable.listMap Site.recordable_toValue
  cases failure <;>
    · refine .table (by simp) ?_
      simp [hdefined, hsites]

theorem Analysis.recordable_skippedValue (r : FileReport) : (skippedValue r).Recordable := by
  refine .table (by simp) ?_
  simp

theorem Analysis.recordable_toValue (a : Analysis) : a.toValue.Recordable := by
  have hfiles := Value.Recordable.listMap FileReport.recordable_toValue a.files
  have hskipped := Value.Recordable.listMap recordable_skippedValue a.skipped
  refine .table (by simp) ?_
  simp [hfiles, hskipped]

theorem Flow.recordable_toValue (f : Flow) : f.toValue.Recordable := by
  obtain ⟨name, definedIn, raisedIn, interceptedIn, unguardedIn, duplicateDefinitions⟩ := f
  have hpaths := Value.Recordable.listMap Value.Recordable.str
  cases definedIn <;>
    · refine .table (by simp [toEntries]) ?_
      simp [toEntries, hpaths]

/-! ### The archive -/

/-- Records that are kept whole by what is written of them: the text is a
document of the record's value and of no other, the reader gives that value
back, and the record is decoded from it. -/
structure Archives {α : Type} (toValue : α → Value) (ofValue? : Value → Option α)
    (text : α → String) : Prop where
  document : ∀ x v, Json.Document v (text x) ↔ v = toValue x
  read : ∀ x, Json.read? (text x) = some (toValue x)
  decode : ∀ x, ofValue? (toValue x) = some x
  injective : Function.Injective text

/-- Recordable values that can be decoded make an archive. -/
theorem Archives.pretty {α : Type} {toValue : α → Value} {ofValue? : Value → Option α}
    (hrecord : ∀ x, (toValue x).Recordable) (hdecode : ∀ x, ofValue? (toValue x) = some x) :
    Archives toValue ofValue? fun x => Json.pretty (toValue x) where
  document x v := by
    have hdocument := Json.document_pretty (hrecord x)
    exact ⟨fun h => h.unique hdocument, fun h => h ▸ hdocument⟩
  read x := Json.read?_of_document (Json.document_pretty (hrecord x))
  decode := hdecode
  injective x y htext := by
    have hx := Json.document_pretty (hrecord x)
    have hy := Json.document_pretty (hrecord y)
    have hvalue : toValue x = toValue y := by
      change Json.pretty (toValue x) = Json.pretty (toValue y) at htext
      rw [← htext] at hy
      exact hx.unique hy
    exact Option.some.inj ((hdecode x).symm.trans (hvalue ▸ hdecode y))

/-- Nothing is lost in the archive, neither of analyses nor of flows, and no
analysis is taken for a flow. -/
theorem archive_loses_nothing :
    Archives Analysis.toValue Analysis.ofValue? Format.json.files ∧
      Archives Flow.toValue Flow.ofValue? Format.json.flow ∧
      ∀ a f, Format.json.files a ≠ Format.json.flow f := by
  have hanalyses := Archives.pretty Analysis.recordable_toValue Analysis.ofValue?_toValue
  have hflows := Archives.pretty Flow.recordable_toValue Flow.ofValue?_toValue
  refine ⟨hanalyses, hflows, fun a f htext => ?_⟩
  have hvalue : a.toValue = f.toValue := by
    change Json.pretty a.toValue = Json.pretty f.toValue at htext
    exact Option.some.inj (by rw [← hanalyses.read a, htext, hflows.read f])
  simp [Analysis.toValue, Flow.toValue, Flow.toEntries] at hvalue

end ThrowCatch
