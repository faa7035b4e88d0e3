import Flowchart.Proofs.Actions
import Flowchart.Proofs.Storage.StoredText
import Flowchart.Storage.Store

/-!
# Calls of the store

* `Store.text?`, `Store.Holds`: the file of a flowchart and what is read from it.
* `Store.save_out`, `Store.fetch_out`, `Store.update_out`, `Store.delete_out`: what each call does to the
  file of its flowchart.
-/

namespace Flowchart

/-! ### Files -/

/-- Giving a new value to a key of a list of pairs changes what is found under that key only. -/
theorem lookup_map_replace [BEq κ] [LawfulBEq κ] [DecidableEq κ] (entries : List (κ × α)) (k : κ) (a : α)
    (j : κ) :
    (entries.map fun entry => if entry.1 = k then (k, a) else entry).lookup j =
      if j = k then (entries.lookup k).map fun _ => a else entries.lookup j := by
  induction entries with
  | nil => simp
  | cons entry entries ih =>
    obtain ⟨i, b⟩ := entry
    rw [List.map_cons]
    by_cases here : i = k
    · subst here
      rw [if_pos rfl, List.lookup_cons, List.lookup_cons, List.lookup_cons, ih]
      by_cases same : j = i
      · simp [same]
      · simp [same, beq_eq_false_iff_ne.2 same]
    · rw [if_neg here, List.lookup_cons, List.lookup_cons, List.lookup_cons, ih]
      by_cases same : j = k
      · subst same
        simp [beq_eq_false_iff_ne.2 (Ne.symm here)]
      · simp [same]

/-- Dropping a key changes what is found under that key only. -/
theorem lookup_filter_ne [BEq κ] [LawfulBEq κ] [DecidableEq κ] (entries : List (κ × α)) (k j : κ) :
    (entries.filter fun entry => entry.1 ≠ k).lookup j = if j = k then none else entries.lookup j := by
  induction entries with
  | nil => simp
  | cons entry entries ih =>
    obtain ⟨i, a⟩ := entry
    rw [List.filter_cons]
    by_cases here : i = k
    · subst here
      rw [if_neg (by simp), ih]
      split
      next => rfl
      next other => rw [List.lookup_cons, beq_eq_false_iff_ne.2 other]
    · rw [if_pos (by simpa using here), List.lookup_cons, List.lookup_cons, ih]
      by_cases same : j = k
      · subst same
        simp [beq_eq_false_iff_ne.2 (Ne.symm here)]
      · simp [same]

namespace Files

/-- Writing a file changes what is read from its place only. -/
theorem read?_write_eq (files : Files) (path other : Path) (text : String) :
    (files.write path text).read? other =
      if other.normal = path.normal then some text else files.read? other := by
  unfold write read?
  split
  next present =>
    -- the entry keeps its key, so it is replaced by a pair that does not depend on it
    have replaced : (fun file : Path × String => if file.1 = path.normal then (file.1, text) else file) =
        fun file => if file.1 = path.normal then (path.normal, text) else file := by
      funext file
      split
      next same => rw [same]
      next => rfl
    obtain ⟨old, found⟩ := Option.isSome_iff_exists.1 present
    have found : files.lookup path.normal = some old := found
    rw [replaced, lookup_map_replace, found, Option.map_some]
  next absent =>
    have absent : files.lookup path.normal = none := Option.not_isSome_iff_eq_none.1 absent
    rw [List.lookup_append, List.lookup_cons, List.lookup_nil]
    by_cases same : other.normal = path.normal
    · rw [if_pos same, same, absent, beq_self_eq_true]
      rfl
    · rw [if_neg same, beq_eq_false_iff_ne.2 same]
      exact Option.or_none

theorem read?_write (files : Files) (path : Path) (text : String) :
    (files.write path text).read? path = some text := by
  rw [read?_write_eq, if_pos rfl]

theorem read?_erase (files : Files) (path : Path) : (files.erase path).read? path = none := by
  rw [erase, read?, lookup_filter_ne, if_pos rfl]

end Files

/-! ### The store -/

namespace Store

variable {owner id : String} {s after : Store} {back : StoredDocument}

/-- The text of the file of a flowchart. -/
def text? (owner id : String) (s : Store) : Option String :=
  match path owner id with
  | .ok path => s.files.read? path
  | .error _ => none

/-- What is read from the file of a flowchart. -/
def Holds (owner id : String) (s : Store) (back : StoredDocument) : Prop :=
  ∃ text, s.text? owner id = some text ∧ StoredDocument.parse s.now text = .ok back

theorem text?_of_path {place : Path} (named : path owner id = .ok place) (s : Store) :
    s.text? owner id = s.files.read? place := by
  rw [text?, named]

theorem parse_eq_ok_iff {place : Path} {text : String} :
    s.parse place text = .ok back ↔ StoredDocument.parse s.now text = .ok back := by
  unfold parse
  cases StoredDocument.parse s.now text with
  | error count => simp [Except.mapError]
  | ok other => simp [Except.mapError]

theorem fetch_out {r : Except Failure (Option StoredDocument)} :
    (fetch owner id).out s = (r, after) → after = s ∧ match r with
      | .ok (some back) => s.Holds owner id back
      | _ => ∀ back, ¬s.Holds owner id back := by
  intro done
  unfold fetch at done
  obtain ⟨e, failed, rfl⟩ | ⟨place, mid, found, done⟩ := Act.out_bind_eq done
  · obtain ⟨missing, rfl⟩ := Act.ofExcept_out failed
    refine ⟨rfl, ?_⟩
    rintro back ⟨text, file, -⟩
    rw [text?, missing] at file
    cases file
  · obtain ⟨named, rfl⟩ := Act.ofExcept_out found
    have done := Act.out_bind_eq_of_ok Act.out_get done
    unfold Holds
    rw [text?_of_path named]
    split at done
    next missing =>
      cases done
      refine ⟨rfl, ?_⟩
      rintro back ⟨text, file, -⟩
      rw [missing] at file
      cases file
    next text file =>
      obtain ⟨e, failed, rfl⟩ | ⟨back, mid, read, done⟩ := Act.out_bind_eq done
      · obtain ⟨refused, rfl⟩ := Act.ofExcept_out failed
        refine ⟨rfl, ?_⟩
        rintro back ⟨other, same, parsed⟩
        cases file.symm.trans same
        rw [parse_eq_ok_iff.2 parsed] at refused
        cases refused
      · obtain ⟨parsed, rfl⟩ := Act.ofExcept_out read
        cases done
        exact ⟨rfl, text, file, parse_eq_ok_iff.1 parsed⟩

/-- A file that can be read is found. -/
theorem exists_fetch (holds : s.Holds owner id back) : ∃ found, ((fetch owner id).out s).1 = .ok (some found) := by
  rcases fetched : (fetch owner id).out s with ⟨_ | _ | found, after⟩
  · exact absurd holds ((fetch_out fetched).2 back)
  · exact absurd holds ((fetch_out fetched).2 back)
  · exact ⟨found, rfl⟩

/-- Nothing is found only where there is no file. -/
theorem text?_of_fetch_none (done : (fetch owner id).out s = (.ok none, after)) : s.text? owner id = none := by
  unfold fetch at done
  obtain ⟨_, _, failed⟩ | ⟨place, mid, found, done⟩ := Act.out_bind_eq done
  · cases failed
  · obtain ⟨named, rfl⟩ := Act.ofExcept_out found
    have done := Act.out_bind_eq_of_ok Act.out_get done
    rw [text?_of_path named]
    split at done
    next missing => exact missing
    next text _ =>
      obtain ⟨_, _, failed⟩ | ⟨_, _, _, rest⟩ := Act.out_bind_eq done
      · cases failed
      · cases rest

theorem tick_out : tick.out s = (.ok s.now, { s with readings := s.readings + 1 }) := rfl

/-- A flowchart is written to the file that its owner and its id name. -/
theorem put_out {stored : StoredDocument} {r : Except Failure Unit} :
    (put stored).out s = (r, after) → match r with
      | .ok _ => after.text? stored.ownerId stored.id = some stored.render ∧ after.readings = s.readings
      | .error _ => s.text? stored.ownerId stored.id = none := by
  intro done
  unfold put at done
  obtain ⟨e, failed, rfl⟩ | ⟨place, mid, found, done⟩ := Act.out_bind_eq done
  · obtain ⟨missing, -⟩ := Act.ofExcept_out failed
    show text? _ _ _ = none
    rw [text?, missing]
  · obtain ⟨named, rfl⟩ := Act.ofExcept_out found
    cases done
    refine ⟨?_, rfl⟩
    rw [text?_of_path named]
    exact Files.read?_write _ _ _

/-- A flowchart that was saved stands in the file of its owner and its id. -/
theorem save_out {name : String} {d : Document} {description : Option String} {stored : StoredDocument}
    (done : (save owner name d description).out s = (.ok stored, after)) :
    after.text? owner stored.id = some stored.render ∧ stored.ownerId = owner ∧ stored.document = d ∧
      after.readings = s.readings + 1 := by
  unfold save at done
  have done := Act.out_bind_eq_of_ok tick_out done
  obtain ⟨_, _, failed⟩ | ⟨minted, mid, issued, done⟩ := Act.out_bind_eq done
  · cases failed
  · split at done
    next => cases done
    next =>
      obtain ⟨_, _, failed⟩ | ⟨_, last, written, done⟩ := Act.out_bind_eq done
      · cases failed
      · cases done
        obtain ⟨file, readings⟩ := put_out written
        cases issued
        exact ⟨file, rfl, rfl, readings⟩

/-- A change of a file that bears its own owner and id is made exactly if the file can be read. -/
theorem update_out {changes : StoredChanges} {r : Except Failure StoredDocument}
    (filed : ∀ back, s.Holds owner id back → back.ownerId = owner ∧ back.id = id) :
    (update owner id changes).out s = (r, after) → match r with
      | .ok stored => ∃ back, s.Holds owner id back ∧ stored.ownerId = owner ∧ stored.id = id ∧
          stored.document = changes.document.getD back.document ∧
          stored.version = changes.version.getD back.version ∧
          after.text? owner id = some stored.render ∧ after.readings = s.readings + 1
      | .error _ => after = s ∧ ∀ back, ¬s.Holds owner id back := by
  intro done
  unfold update at done
  obtain ⟨e, failed, rfl⟩ | ⟨found, mid, fetched, rest⟩ := Act.out_bind_eq done
  · exact fetch_out failed
  · cases found with
    | none =>
      cases rest
      exact fetch_out fetched
    | some back =>
      obtain ⟨rfl, holds⟩ := fetch_out fetched
      -- what was read is written back under its own owner and id, which are those of the file
      obtain ⟨rfl, rfl⟩ := filed back holds
      have written := Act.out_bind_eq_of_ok tick_out rest
      obtain ⟨e, failed, rfl⟩ | ⟨_, last, written, done⟩ := Act.out_bind_eq written
      · -- the path that was read is the one that is written
        obtain ⟨text, file, -⟩ := holds
        cases file.symm.trans (put_out failed)
      · cases done
        obtain ⟨file, readings⟩ := put_out written
        exact ⟨back, holds, rfl, rfl, rfl, rfl, file, readings⟩

/-- Deleting leaves no file; only an owner without a name is refused. -/
theorem delete_out {r : Except Failure Bool} (done : (delete owner id).out s = (r, after)) :
    after.text? owner id = none ∧ after.readings = s.readings ∧ ∀ e, r = .error e → after = s := by
  unfold delete at done
  obtain ⟨e, failed, rfl⟩ | ⟨place, mid, found, done⟩ := Act.out_bind_eq done
  · obtain ⟨missing, rfl⟩ := Act.ofExcept_out failed
    refine ⟨?_, rfl, fun _ _ => rfl⟩
    rw [text?, missing]
  · obtain ⟨named, rfl⟩ := Act.ofExcept_out found
    have done := Act.out_bind_eq_of_ok Act.out_get done
    rw [text?_of_path named]
    split at done
    next missing =>
      cases done
      exact ⟨missing, rfl, nofun⟩
    next =>
      cases done
      exact ⟨Files.read?_erase _ _, rfl, nofun⟩

end Store

end Flowchart
