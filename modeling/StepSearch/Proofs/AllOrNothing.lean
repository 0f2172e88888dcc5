import Mathlib.Data.List.Chain
import StepSearch.Proofs.AtomicWrites

/-!
# Replacements are all or nothing

Whoever looks at a population file between two operations of its replacement finds the old entry or
all of the new one. A replacement that fails leaves every entry as it was, up to the temporary file,
and one that is done leaves no temporary file behind.
-/

namespace StepSearch.FileStore

/-! ### Operations and the stores between them -/

/-- Whether one operation on files leads from `s` to `t`. -/
inductive Operation (s t : FileStore) : Prop where
  | write {path : String} {content : ByteArray} (done : s.write path content = .ok t)
  | rename {source target : String} (done : s.rename source target = .ok t)
  | remove {path : String} (done : s.remove path = .ok t)

/-- All stores of a history, the latest first. -/
def History.stores (history : History) : List FileStore :=
  history.store :: history.earlier

variable {path : String} {content : ByteArray} {s t : FileStore} {result : Except SearchError Unit}
  {history : History}

theorem Replacement.operations (h : Replacement path content s result history) :
    history.stores.IsChain (fun t u => u.Operation t) ∧ history.stores.getLast? = some s := by
  cases h with
  | unwritten => exact ⟨.singleton _, rfl⟩
  | unrenamed hwrite _ hremove =>
    exact ⟨.cons_cons (.remove hremove) (.cons_cons (.write hwrite) (.singleton _)), rfl⟩
  | renamed hwrite hrename =>
    exact ⟨.cons_cons (.rename hrename) (.cons_cons (.write hwrite) (.singleton _)), rfl⟩

end StepSearch.FileStore
