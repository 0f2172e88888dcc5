import StepSearch.FileStore
import StepSearch.Proofs.Outcome

/-!
# File trees

A file store keeps what is put at a place and leaves the other places alone. A path leads to the same
place as before as long as no directory on the way is lost, and the operations of a search never take
one away.
-/

namespace StepSearch

/-! ### Places of the tree -/

namespace FileStore

theorem lookup_filter_ne {l l' : Location} (h : l' ≠ l) (entries : List (Location × Entry)) :
    (entries.filter fun p => p.1 != l).lookup l' = entries.lookup l' := by
  induction entries with
  | nil => rfl
  | cons p entries ih =>
    obtain ⟨place, entry⟩ := p
    by_cases hp : place = l
    · have hne : (l' == place) = false := by
        rw [hp]
        exact beq_false_of_ne h
      rw [List.filter_cons_of_neg (by simp [hp]), ih, List.lookup_cons, hne]
    · rw [List.filter_cons_of_pos (by simp [hp]), List.lookup_cons, List.lookup_cons, ih]

theorem get?_insert_self (s : FileStore) {l : Location} (h : l ≠ []) (e : Entry) :
    (s.insert l e).get? l = some e := by
  simp [get?, insert, h]

theorem get?_insert_ne (s : FileStore) {l l' : Location} (h : l' ≠ l) (e : Entry) :
    (s.insert l e).get? l' = s.get? l' := by
  unfold get? insert
  split
  · rfl
  · rw [List.lookup_cons, beq_false_of_ne h]
    exact lookup_filter_ne h s.entries

theorem get?_erase_ne (s : FileStore) {l l' : Location} (h : l' ≠ l) :
    (s.erase l).get? l' = s.get? l' := by
  unfold get? erase
  split
  · rfl
  · exact lookup_filter_ne h s.entries

theorem get?_erase_self (s : FileStore) {l : Location} (h : l ≠ []) : (s.erase l).get? l = none := by
  unfold get? erase
  rw [if_neg h, List.lookup_eq_none_iff]
  intro p hp
  have hne := (List.mem_filter.mp hp).2
  rw [bne_comm]
  exact hne

theorem get?_top (s : FileStore) : s.get? [] = some .directory := rfl

theorem ne_top_of_not_directory {s : FileStore} {l : Location} (h : s.get? l ≠ some .directory) :
    l ≠ [] := by
  rintro rfl
  exact h (get?_top s)

/-! ### Paths -/

theorem walk_append (s : FileStore) (place : Location) (names names' : List String) :
    s.walk place (names ++ names') = s.walk place names >>= fun l => s.walk l names' := by
  induction names generalizing place with
  | nil => rfl
  | cons name names ih =>
    rw [List.cons_append, walk, walk]
    cases s.get? place with
    | none => rfl
    | some entry =>
      cases entry with
      | file content => rfl
      | directory =>
        simp only [ih]
        split
        · rfl
        split
        · rfl
        split
        · rfl
        · rfl

/-- A last name leads to the directory itself, one up, or to an entry of it. -/
theorem walk_name {s : FileStore} {place : Location} {name : String}
    (hplace : s.get? place = some .directory) (hsize : name.utf8ByteSize ≤ maxNameSize) :
    ∃ l, s.walk place [name] = .ok l ∧
      (l = place ∨ l = place.dropLast ∨ l = place ++ [name]) := by
  simp only [walk, hplace]
  by_cases hstay : name = "" ∨ name = "."
  · exact ⟨place, if_pos hstay, .inl rfl⟩
  rw [if_neg hstay]
  by_cases hup : name = ".."
  · exact ⟨place.dropLast, if_pos hup, .inr (.inl rfl)⟩
  · rw [if_neg hup, if_neg (Nat.not_lt.mpr hsize)]
    exact ⟨place ++ [name], rfl, .inr (.inr rfl)⟩

theorem locate_ok_iff {s : FileStore} {path : String} {l : Location} : s.locate path = .ok l ↔
    '\x00' ∉ path.toList ∧ path.utf8ByteSize ≤ maxPathSize ∧
      s.walk (s.start path) (pathNames path) = .ok l := by
  unfold locate
  simp only [List.contains_iff_mem]
  by_cases hnul : '\x00' ∈ path.toList
  · simp [hnul]
  by_cases hlong : maxPathSize < path.utf8ByteSize
  · simp [hnul, hlong, Nat.not_le.mpr hlong]
  · simp [hnul, hlong, Nat.not_lt.mp hlong]

/-- What stands at the place to which a path leads, if it leads to one. -/
def entryAt (s : FileStore) (path : String) : Except FileFault (Option Entry) :=
  (s.locate path).map s.get?

/-- Nothing but the entry matters for reading. -/
theorem read_eq_entryAt (s : FileStore) (path : String) :
    s.read path = s.entryAt path >>= fun entry? =>
      match entry? with
      | none => .error .notFound
      | some .directory => .error .isDirectory
      | some (.file content) => .ok content := by
  unfold read entryAt
  cases s.locate path with
  | error fault => rfl
  | ok l => rfl

/-! ### Directories that stay -/

/-- Every directory of `s` is a directory of `t`, and both have the same working directory. -/
structure KeepsDirectories (s t : FileStore) : Prop where
  here_eq : t.here = s.here
  directory : ∀ l, s.get? l = some .directory → t.get? l = some .directory

namespace KeepsDirectories

variable {s t u : FileStore}

theorem trans (h : KeepsDirectories s t) (h' : KeepsDirectories t u) : KeepsDirectories s u :=
  ⟨h'.here_eq.trans h.here_eq, fun l hl => h'.directory l (h.directory l hl)⟩

theorem insert {l : Location} (h : s.get? l ≠ some .directory) (e : Entry) :
    KeepsDirectories s (s.insert l e) := by
  refine ⟨rfl, fun l' hl' => ?_⟩
  have hne : l' ≠ l := by
    rintro rfl
    exact h hl'
  rw [get?_insert_ne s hne]
  exact hl'

theorem erase {l : Location} (h : s.get? l ≠ some .directory) : KeepsDirectories s (s.erase l) := by
  refine ⟨rfl, fun l' hl' => ?_⟩
  have hne : l' ≠ l := by
    rintro rfl
    exact h hl'
  rw [get?_erase_ne s hne]
  exact hl'

/-- Only directories matter on the way. -/
theorem walk_ok (h : KeepsDirectories s t) {place l : Location} {names : List String}
    (hs : s.walk place names = .ok l) : t.walk place names = .ok l := by
  induction names generalizing place with
  | nil => exact hs
  | cons name names ih =>
    cases hplace : s.get? place with
    | none => simp [walk, hplace] at hs
    | some entry =>
      cases entry with
      | file content => simp [walk, hplace] at hs
      | directory =>
        simp only [walk, hplace] at hs
        simp only [walk, h.directory place hplace]
        by_cases hstay : name = "" ∨ name = "."
        · rw [if_pos hstay] at hs ⊢
          exact ih hs
        rw [if_neg hstay] at hs ⊢
        by_cases hup : name = ".."
        · rw [if_pos hup] at hs ⊢
          exact ih hs
        rw [if_neg hup] at hs ⊢
        by_cases hlong : maxNameSize < name.utf8ByteSize
        · rw [if_pos hlong] at hs
          cases hs
        · rw [if_neg hlong] at hs ⊢
          exact ih hs

theorem locate_ok (h : KeepsDirectories s t) {path : String} {l : Location}
    (hs : s.locate path = .ok l) : t.locate path = .ok l := by
  obtain ⟨hnul, hsize, hwalk⟩ := locate_ok_iff.mp hs
  have hstart : t.start path = s.start path := by
    unfold start
    rw [h.here_eq]
  refine locate_ok_iff.mpr ⟨hnul, hsize, ?_⟩
  rw [hstart]
  exact h.walk_ok hwalk

theorem entryAt_eq (h : KeepsDirectories s t) {path : String} {l : Location}
    (hl : s.locate path = .ok l) : t.entryAt path = .ok (t.get? l) := by
  rw [entryAt, h.locate_ok hl]
  rfl

theorem entryAt_unchanged (h : KeepsDirectories s t) {path : String} {l : Location}
    (hl : s.locate path = .ok l) (hentry : t.get? l = s.get? l) :
    t.entryAt path = s.entryAt path := by
  have hs : s.entryAt path = .ok (s.get? l) := by
    rw [entryAt, hl]
    rfl
  rw [h.entryAt_eq hl, hentry, hs]

end KeepsDirectories

/-! ### Changes at some paths -/

/-- Whether `t` has what `s` has, but for the places to which one of the paths leads, and the same
working directory. -/
def ChangesOnly (s : FileStore) (paths : List String) (t : FileStore) : Prop :=
  t.here = s.here ∧ ∀ l, (∀ path ∈ paths, s.locate path ≠ .ok l) → t.get? l = s.get? l

namespace ChangesOnly

variable {s t u : FileStore} {paths : List String} {path : String} {l : Location}

theorem refl (s : FileStore) (paths : List String) : s.ChangesOnly paths s :=
  ⟨rfl, fun _ _ => rfl⟩

/-- A place to which one of the paths leads may change. -/
theorem step (h : s.ChangesOnly paths t) (hpath : path ∈ paths) (hl : s.locate path = .ok l)
    (hhere : u.here = t.here) (hother : ∀ l', l' ≠ l → u.get? l' = t.get? l') :
    s.ChangesOnly paths u := by
  refine ⟨hhere.trans h.1, fun l' hl' => ?_⟩
  have hne : l' ≠ l := by
    rintro rfl
    exact hl' path hpath hl
  rw [hother l' hne]
  exact h.2 l' hl'

theorem insert (h : s.ChangesOnly paths t) (hpath : path ∈ paths) (hl : s.locate path = .ok l)
    (e : Entry) : s.ChangesOnly paths (t.insert l e) :=
  h.step hpath hl rfl fun _ hne => get?_insert_ne t hne e

theorem erase (h : s.ChangesOnly paths t) (hpath : path ∈ paths) (hl : s.locate path = .ok l) :
    s.ChangesOnly paths (t.erase l) :=
  h.step hpath hl rfl fun _ hne => get?_erase_ne t hne

end ChangesOnly

/-! ### Operations -/

theorem read_of_entryAt {s : FileStore} {path : String} {content : ByteArray}
    (h : s.entryAt path = .ok (some (.file content))) : s.read path = .ok content := by
  rw [read_eq_entryAt, h]
  rfl

theorem read_ok {s : FileStore} {path : String} {content : ByteArray}
    (h : s.read path = .ok content) :
    ∃ l, s.locate path = .ok l ∧ s.get? l = some (.file content) := by
  unfold read at h
  obtain ⟨l, hl, h⟩ := Except.bind_ok h
  cases hentry : s.get? l with
  | none => simp [hentry] at h
  | some entry =>
    cases entry with
    | directory => simp [hentry] at h
    | file found =>
      simp only [hentry] at h
      cases h
      exact ⟨l, hl, hentry⟩

/-- Only a place without a directory takes a file. -/
theorem free_of_ok {s t : FileStore} {l : Location} {result : Except FileFault FileStore}
    (h : (match s.get? l with
      | some .directory => Except.error FileFault.isDirectory
      | _ => result) = .ok t) :
    s.get? l ≠ some .directory ∧ result = .ok t := by
  cases hentry : s.get? l with
  | none =>
    simp only [hentry] at h
    exact ⟨by simp, h⟩
  | some entry =>
    cases entry with
    | directory => simp [hentry] at h
    | file found =>
      simp only [hentry] at h
      exact ⟨by simp, h⟩

theorem write_ok {s t : FileStore} {path : String} {content : ByteArray}
    (h : s.write path content = .ok t) :
    ∃ l, s.locate path = .ok l ∧ s.get? l ≠ some .directory ∧
      t = s.insert l (.file content) := by
  unfold write at h
  obtain ⟨l, hl, h⟩ := Except.bind_ok h
  obtain ⟨hfree, h⟩ := free_of_ok h
  by_cases hroom : (s.insert l (.file content)).hasRoom
  · rw [if_pos hroom] at h
    exact ⟨l, hl, hfree, (Except.ok.inj h).symm⟩
  · rw [if_neg hroom] at h
    cases h

theorem write_of_room {s : FileStore} {path : String} {l : Location} {content : ByteArray}
    (hl : s.locate path = .ok l) (hfree : s.get? l ≠ some .directory)
    (hroom : (s.insert l (.file content)).hasRoom = true) :
    s.write path content = .ok (s.insert l (.file content)) := by
  unfold write
  rw [hl]
  simp only [bind, Except.bind]
  cases hentry : s.get? l with
  | none => exact if_pos hroom
  | some entry =>
    cases entry with
    | directory => exact absurd hentry hfree
    | file old => exact if_pos hroom

theorem used_insert {s : FileStore} {l : Location} (hnew : s.get? l = none) (e : Entry) :
    (s.insert l e).used = e.size + s.used := by
  have htop : l ≠ [] := by
    rintro rfl
    cases hnew
  have hothers : s.entries.filter (fun p => p.1 != l) = s.entries := by
    rw [get?, if_neg htop, List.lookup_eq_none_iff] at hnew
    refine List.filter_eq_self.mpr fun p hp => ?_
    rw [bne_comm]
    exact hnew p hp
  unfold used insert
  rw [hothers, List.foldr_cons]

/-- A store whose files take all its room has none for another one. -/
theorem write_of_full {s : FileStore} {path : String} {l : Location} {content : ByteArray}
    (hl : s.locate path = .ok l) (hnew : s.get? l = none) (hfull : s.capacity = some s.used)
    (hcontent : 0 < content.size) : s.write path content = .error .noSpace := by
  have hroom : ¬ (s.insert l (.file content)).hasRoom = true := by
    have hcapacity : (s.insert l (.file content)).capacity = some s.used := hfull
    unfold hasRoom
    simp only [hcapacity, used_insert hnew, Entry.size, decide_eq_true_eq]
    omega
  unfold write
  rw [hl]
  simp only [bind, Except.bind, hnew, if_neg hroom]

theorem rename_ok {s t : FileStore} {source target : String}
    (h : s.rename source target = .ok t) :
    ∃ old new content, s.locate source = .ok old ∧ s.get? old = some (.file content) ∧
      s.locate target = .ok new ∧ s.get? new ≠ some .directory ∧
      t = (s.erase old).insert new (.file content) := by
  unfold rename at h
  obtain ⟨content, hread, h⟩ := Except.bind_ok h
  obtain ⟨old, hold, h⟩ := Except.bind_ok h
  obtain ⟨new, hnew, h⟩ := Except.bind_ok h
  obtain ⟨old', hold', hfile⟩ := read_ok hread
  obtain rfl : old' = old := Except.ok.inj (hold'.symm.trans hold)
  refine ⟨old', new, content, hold, hfile, hnew, ?_⟩
  by_cases hdots : endsInDots target
  · rw [if_pos hdots] at h
    cases h
  rw [if_neg hdots] at h
  by_cases hopen : endsOpen target
  · rw [if_pos hopen] at h
    cases h
  rw [if_neg hopen] at h
  obtain ⟨hfree, h⟩ := free_of_ok h
  exact ⟨hfree, (Except.ok.inj h).symm⟩

end FileStore

end StepSearch
