import ThrowCatch.Proofs.LinkFree
import ThrowCatch.Proofs.TomlDocuments
import ThrowCatch.Settings.Load

/-!
Entries of settings. What a settings file sets are the entries of its document,
each key once; a file that is not there sets nothing. Of entries from wherever
settings are made, unless one of them has a name that no setting has.
-/

namespace ThrowCatch.Settings

variable {d : Disk} {p : Path} {document : Toml.Entries}

/-- There is a file, and its text is the document. -/
def Holds (d : Disk) (p : Path) (document : Toml.Entries) : Prop :=
  ∃ bytes, d.read p = .ok bytes ∧ Toml.readBytes? bytes = some document

/-- What a file says that need not be there. -/
def Says (d : Disk) (p : Path) (document : Toml.Entries) : Prop :=
  Holds d p document ∨ isThere d p = .ok false ∧ document = []

theorem isThere_of_holds (h : Holds d p document) : isThere d p = .ok true := by
  obtain ⟨bytes, hread, -⟩ := h
  rw [Disk.read] at hread
  rw [isThere]
  cases hstat : d.stat p with
  | error e =>
      rw [hstat] at hread
      cases hread
  | ok e => rfl

theorem fromFile_of_holds (h : Holds d p document) (what : String) :
    fromFile d what p = .ok (ownEntries document) := by
  obtain ⟨bytes, hread, hdocument⟩ := h
  rw [fromFile, ofFile, hread]
  simp only [hdocument]

theorem fromOptionalFile_of_says (h : Says d p document) (what : String) :
    fromOptionalFile d what p = .ok (ownEntries document) := by
  obtain hholds | ⟨hmissing, rfl⟩ := h
  · rw [fromOptionalFile, isThere_of_holds hholds]
    exact fromFile_of_holds hholds what
  · rw [fromOptionalFile, hmissing]
    rfl

theorem nodup_ownEntries_of_tidy (h : Toml.Tidy (.table document)) :
    ((ownEntries document).map (·.1)).Nodup := by
  unfold ownEntries
  split
  · next inner hinner => exact (h.field? hinner).keys
  · exact h.keys

theorem nodup_ownEntries (h : Says d p document) : ((ownEntries document).map (·.1)).Nodup := by
  obtain ⟨bytes, -, hdocument⟩ | ⟨-, rfl⟩ := h
  · exact nodup_ownEntries_of_tidy (Toml.tidy_readBytes? hdocument)
  · exact List.nodup_nil

/-! ### Files in the topmost directory -/

section

variable {files : List (String × Entry)} {name : String}

theorem holds_top (htop : d.top = .directory files) (hlinks : d.top.linkCount = 0)
    (hname : Disk.Ordinary [name]) (hshort : name.utf8ByteSize ≤ Disk.maxNameBytes)
    {text : String} (hfile : d.top.entry? name = some (.file text.toUTF8))
    (hread : Toml.read? text = some document) : Holds d ⟨.root, [name]⟩ document := by
  refine ⟨text.toUTF8, ?_, (Toml.readBytes?_toUTF8 text).trans hread⟩
  rw [Disk.read, Disk.stat_top hlinks htop hname hshort, hfile]
  rfl

theorem says_top_missing (htop : d.top = .directory files) (hlinks : d.top.linkCount = 0)
    (hname : Disk.Ordinary [name]) (hshort : name.utf8ByteSize ≤ Disk.maxNameBytes)
    (hfile : d.top.entry? name = none) : Says d ⟨.root, [name]⟩ [] := by
  refine .inr ⟨?_, rfl⟩
  rw [isThere, Disk.stat_top hlinks htop hname hshort, hfile]

end

/-! ### Settings made of entries -/

/-- A name that no setting has. -/
def isUnknown (key : String) : Bool := !keys.contains key

theorem find?_known {names : List String} (h : names ⊆ keys) : names.find? isUnknown = none := by
  refine List.find?_eq_none.mpr fun key hkey => ?_
  simp [isUnknown, h hkey]

section

variable {entries : List (String × Value)}

theorem find?_entries_unknown (entries : List (String × Value)) :
    (entries.map (·.1)).find? isUnknown =
      (entries.find? fun (k, _) => !keys.contains k).map (·.1) :=
  List.find?_map

/-- The first unknown key is refused before any value is looked at. -/
theorem ofEntries_of_unknown {key : String}
    (h : (entries.map (·.1)).find? isUnknown = some key) :
    ofEntries entries = .error (.unknownSetting key) := by
  rw [find?_entries_unknown, Option.map_eq_some_iff] at h
  obtain ⟨entry, hentry, rfl⟩ := h
  rw [ofEntries, hentry]

theorem ofEntries_of_known (h : (entries.map (·.1)).find? isUnknown = none) :
    ofEntries entries = ((fill entries).check).map fun _ => fill entries := by
  rw [find?_entries_unknown, Option.map_eq_none_iff] at h
  rw [ofEntries, h]

end

end ThrowCatch.Settings
