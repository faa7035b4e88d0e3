import Flowchart.Proofs.Storage.Failures
import Flowchart.Proofs.Storage.Shelf

/-!
# Owners and their directories

* `Path.IsName`: the names under which a directory holds a place of its own. `Store.directory_isName_iff` says which
  owners have such a directory in the store: all but two.
* `Store.only`: the store without the files outside of a directory. `Act.Confined`: an action that neither sees nor
  changes these.
* `Store.Filed`: every file bears the owner and the id that it is named for. All calls keep that.
* `StoreCall.confined`: a call sees and changes the directory of its owner only.
* `StoreCall.reach_confines`: what the directories of owners have to do with each other, after any calls.
-/

namespace Flowchart

/-! ### Names -/

/-- A part of a path that leads to a place of its own, and not through other directories. -/
structure Path.IsName (part : String) : Prop where
  plain : IsPlain part
  undivided : '/' ∉ part.toList

theorem slash_not_mem_percentPart (byte : UInt8) : '/' ∉ percentPart byte := by
  have digits : ∀ n < 16, upperHexDigit n ≠ '/' := by decide
  have high := digits (byte.toNat / 16) (by have := byte.toNat_lt; omega)
  have low := digits (byte.toNat % 16) (by omega)
  unfold percentPart
  split
  next unreserved =>
    intro slash
    rw [← List.mem_singleton.mp slash] at unreserved
    exact absurd unreserved (by decide)
  next => simp [percentByte, high.symm, low.symm]

theorem slash_not_mem_percentEncoded (text : String) : '/' ∉ (percentEncoded text).toList := by
  rw [percentEncoded_toList, List.mem_flatMap]
  rintro ⟨byte, -, slash⟩
  exact slash_not_mem_percentPart byte slash

namespace Store

variable {owner other id : String}

theorem fileName_isName (id : String) : Path.IsName (fileName id) where
  plain := fileName_isPlain id
  undivided := by
    rw [fileName_toList, List.mem_append, not_or]
    exact ⟨slash_not_mem_percentEncoded id, by decide⟩

theorem percentEncoded_eq_iff {text plain : String} (same : percentEncoded plain = plain) :
    percentEncoded text = plain ↔ text = plain := by
  constructor
  · intro encoded
    exact percentEncoded_injective (encoded.trans same.symm)
  · rintro rfl
    exact same

/-- Two owners have no directory of their own in that of the store: theirs are this one, and the one around it. -/
theorem directory_isName_iff (named : owner ≠ "") :
    (∃ name, Path.IsName name ∧ directory owner = [name]) ↔ owner ≠ "." ∧ owner ≠ ".." := by
  -- dots are not encoded, so these two names reach the path as they are
  have dot : percentEncoded owner = "." ↔ owner = "." := percentEncoded_eq_iff (by decide)
  have dots : percentEncoded owner = ".." ↔ owner = ".." := percentEncoded_eq_iff (by decide)
  have some_ : percentEncoded owner ≠ "" := mt percentEncoded_eq_empty_iff.mp named
  rw [directory, Path.normal_single]
  constructor
  · rintro ⟨name, isName, same⟩
    split at same
    next => cases same
    next inside =>
      cases same
      exact ⟨fun here => inside (.inl (dot.mpr here)), fun out => isName.plain.2.2 (dots.mpr out)⟩
  · rintro ⟨notDot, notDots⟩
    rw [if_neg (not_or.mpr ⟨mt dot.mp notDot, some_⟩)]
    exact ⟨_, ⟨⟨mt dot.mp notDot, some_, mt dots.mp notDots⟩, slash_not_mem_percentEncoded owner⟩, rfl⟩

end Store

/-! ### Files of a directory -/

/-- The path is that of a file in the directory, and not of one further down. -/
def Path.liesIn (path directory : Path) : Bool := !path.isEmpty && path.dropLast == directory

theorem Path.liesIn_concat (directory other : Path) (name : String) :
    liesIn (directory ++ [name]) other = (directory == other) := by
  simp [liesIn]

namespace Files

/-- The files in a directory. -/
def inside (directory : Path) (files : Files) : Files := files.filter fun file => file.1.liesIn directory

/-- The files that are not in a directory. -/
def outside (directory : Path) (files : Files) : Files := files.filter fun file => !file.1.liesIn directory

theorem lookup_filter_key [BEq κ] [LawfulBEq κ] (keep : κ → Bool) {k : κ} (kept : keep k = true)
    (entries : List (κ × α)) : (entries.filter fun entry => keep entry.1).lookup k = entries.lookup k := by
  induction entries with
  | nil => rfl
  | cons entry entries ih =>
    obtain ⟨j, a⟩ := entry
    rw [List.filter_cons, List.lookup_cons]
    cases here : k == j with
    | true =>
      rw [← eq_of_beq here, kept, if_pos rfl, List.lookup_cons, beq_self_eq_true]
    | false =>
      split
      next => rw [List.lookup_cons, here, ih]
      next => exact ih

variable {directory path : Path}

theorem read?_inside (lies : path.normal.liesIn directory = true) (files : Files) :
    (files.inside directory).read? path = files.read? path :=
  lookup_filter_key (fun place : Path => place.liesIn directory) lies files

theorem inDirectory_inside (normal : path.normal = directory) (files : Files) :
    (files.inside directory).inDirectory path = files.inDirectory path := by
  rw [inDirectory, inside, List.filterMap_filter, inDirectory]
  refine congrArg (List.filterMap · files) (funext fun file => ?_)
  obtain ⟨place, text⟩ := file
  cases reversed : place.reverse with
  | nil => simp [reversed]
  | cons name parents =>
    have split : place = parents.reverse ++ [name] := by simpa using congrArg List.reverse reversed
    by_cases here : parents.reverse = directory
    · simp [split, here, Path.liesIn_concat]
    · simp [split, here, normal, Path.liesIn_concat]

/-- A write leaves the paths of the files as they are, unless it makes a new one. -/
theorem filter_write (keep : Path → Bool) (files : Files) (path : Path) (text : String) :
    (files.write path text).filter (fun file => keep file.1) =
      if (files.read? path).isSome then
        (files.filter fun file => keep file.1).map fun file =>
          if file.1 = path.normal then (file.1, text) else file
      else (files.filter fun file => keep file.1) ++ [(path.normal, text)].filter fun file => keep file.1 := by
  unfold write
  split
  next =>
    rw [List.filter_map]
    refine congrArg (List.map _) (List.filter_congr fun file _ => ?_)
    rw [Function.comp_apply]
    split <;> rfl
  next => rw [List.filter_append]

theorem inside_write (lies : path.normal.liesIn directory = true) (files : Files) (text : String) :
    (files.write path text).inside directory = (files.inside directory).write path text := by
  rw [inside, filter_write fun place => place.liesIn directory, write, read?_inside lies]
  simp [inside, lies]

theorem outside_write (lies : path.normal.liesIn directory = true) (files : Files) (text : String) :
    (files.write path text).outside directory = files.outside directory := by
  rw [outside, filter_write fun place => !place.liesIn directory]
  -- the path that is written is none of those outside
  have same : ∀ file ∈ files.outside directory, (if file.1 = path.normal then (file.1, text) else file) = file := by
    intro file mem
    have apart : file.1 ≠ path.normal := by
      intro here
      have out := (List.mem_filter.mp mem).2
      simp [here, lies] at out
    rw [if_neg apart]
  split
  next => exact (List.map_congr_left same).trans (List.map_id _)
  next => simp [outside, lies]

theorem inside_erase (files : Files) : (files.erase path).inside directory = (files.inside directory).erase path := by
  rw [inside, erase, erase, inside, List.filter_filter, List.filter_filter]
  refine List.filter_congr fun file _ => ?_
  exact Bool.and_comm _ _

theorem outside_erase (lies : path.normal.liesIn directory = true) (files : Files) :
    (files.erase path).outside directory = files.outside directory := by
  rw [outside, erase, List.filter_filter]
  refine List.filter_congr fun file _ => ?_
  by_cases here : file.1 = path.normal
  · simp [here, lies]
  · simp [here]

end Files

/-! ### What a call sees and changes -/

/-- The store without the files outside of a directory. -/
def Store.only (directory : Path) (s : Store) : Store := { s with files := s.files.inside directory }

/-- The action comes to the same if there are no files outside of the directory, and leaves them as they are. -/
structure Act.Confined (directory : Path) (act : Act Store α) (s : Store) : Prop where
  sees : act.out (s.only directory) = ((act.out s).1, (act.out s).2.only directory)
  keeps : (act.out s).2.files.outside directory = s.files.outside directory

namespace Act

variable {directory : Path} {s : Store} {α β : Type}

theorem Confined.bind {act : Act Store α} {next : α → Act Store β} (first : act.Confined directory s)
    (rest : ∀ a mid, act.out s = (.ok a, mid) → (next a).Confined directory mid) :
    (act >>= next).Confined directory s := by
  obtain ⟨sees, keeps⟩ := first
  cases done : act.out s with
  | mk r mid =>
    rw [done] at sees keeps
    cases r with
    | error e => exact ⟨by rw [out_bind, out_bind, sees, done], by rw [out_bind, done]; exact keeps⟩
    | ok a =>
      have next := rest a mid done
      refine ⟨?_, ?_⟩
      · rw [out_bind_of_ok sees, out_bind_of_ok done, next.sees]
      · rw [out_bind_of_ok done, next.keeps, keeps]

theorem confined_pure (a : α) : (pure a : Act Store α).Confined directory s := ⟨rfl, rfl⟩

theorem confined_throw (e : Failure) : (throw e : Act Store α).Confined directory s := ⟨rfl, rfl⟩

end Act

namespace Store

variable {owner id : String} {s : Store}

theorem place_liesIn (owner id : String) : (place owner id).normal.liesIn (directory owner) = true := by
  simp [place_normal, Path.liesIn_concat]

theorem tick_confined {directory : Path} : tick.Confined directory s := ⟨rfl, rfl⟩

theorem issue_confined {directory : Path} : issue.Confined directory s := ⟨rfl, rfl⟩

theorem put_confined {stored : StoredDocument} (named : owner ≠ "") (owned : stored.ownerId = owner) :
    (put stored).Confined (directory owner) s := by
  have out (s : Store) : (put stored).out s =
      (.ok ⟨⟩, { s with files := s.files.write (place owner stored.id) stored.render }) := by
    unfold put
    rw [owned, path_eq named]
    rfl
  have lies := place_liesIn owner stored.id
  constructor
  · rw [out, out]
    simp only [only, Files.inside_write lies]
  · rw [out]
    exact Files.outside_write lies _ _

theorem save_confined (named : owner ≠ "") (name : String) (d : Document) (description : Option String) :
    (save owner name d description).Confined (directory owner) s := by
  refine tick_confined.bind ?_
  intro now _ _
  refine issue_confined.bind ?_
  intro id _ _
  split
  next => exact Act.confined_throw _
  next =>
    refine Act.Confined.bind (put_confined named rfl) ?_
    intro _ _ _
    exact Act.confined_pure _

theorem fetch_confined (named : owner ≠ "") (id : String) : (fetch owner id).Confined (directory owner) s := by
  have read : (s.only (directory owner)).files.read? (place owner id) = s.files.read? (place owner id) :=
    Files.read?_inside (place_liesIn owner id) s.files
  constructor
  · rw [fetch_eq named, fetch_eq named, read]
    split <;> rfl
  · rw [fetch_eq named]
    split <;> rfl

theorem list_confined (named : owner ≠ "") : (list owner).Confined (directory owner) s := by
  have files : (s.only (directory owner)).files.inDirectory [percentEncoded owner] =
      s.files.inDirectory [percentEncoded owner] := Files.inDirectory_inside rfl s.files
  constructor
  · rw [list_eq named, list_eq named, files]
    rfl
  · rw [list_eq named]

theorem delete_confined (named : owner ≠ "") (id : String) : (delete owner id).Confined (directory owner) s := by
  have lies := place_liesIn owner id
  have read : (s.only (directory owner)).files.read? (place owner id) = s.files.read? (place owner id) :=
    Files.read?_inside lies s.files
  constructor
  · rw [delete_eq named, delete_eq named, read]
    split
    next => rfl
    next => simp only [only, Files.inside_erase]
  · rw [delete_eq named]
    split
    next => rfl
    next => exact Files.outside_erase lies _

/-! ### Files that are named for what they bear -/

/-- Every file was written for a record, and bears the owner and the id that it is named for. -/
def Filed (s : Store) : Prop :=
  ∀ file ∈ s.files, ∃ stored : StoredDocument, stored.ownerId ≠ "" ∧ stored.document.Sound ∧ file = stored.file

theorem Filed.fetched (filed : s.Filed) {found : StoredDocument} {after : Store}
    (done : (fetch owner id).out s = (.ok (some found), after)) :
    found.ownerId = owner ∧ found.id = id ∧ found.document.Sound := by
  obtain ⟨-, text, file, parsed⟩ := fetch_out done
  have named : owner ≠ "" := Holds.named ⟨text, file, parsed⟩
  rw [text?_of_path (path_eq named id)] at file
  obtain ⟨stored, owned, sound, same⟩ := filed _ (Files.mem_of_read? file)
  obtain ⟨place, rfl⟩ := Prod.mk.inj same
  obtain ⟨rfl, rfl⟩ := (filePath_eq_iff named owned).mp place
  obtain ⟨sameId, sameOwner, -, -, document⟩ := StoredDocument.eq_of_parse_render sound parsed
  exact ⟨sameOwner, sameId, document ▸ sound.reread⟩

theorem put_filed {stored : StoredDocument} (sound : stored.document.Sound) :
    (put stored).Keeps Filed fun _ => True := by
  have found : ∀ path, Store.path stored.ownerId stored.id = .ok path →
      path = place stored.ownerId stored.id ∧ stored.ownerId ≠ "" := by
    intro path found
    have named := ne_empty_of_path found
    exact ⟨Except.ok.inj (found.symm.trans (path_eq named _)), named⟩
  refine (Act.keeps_ofExcept found).bind ?_
  rintro _ ⟨rfl, named⟩
  refine Act.keeps_modify ?_
  intro s filed file mem
  rcases Files.mem_write mem with old | rfl
  · exact filed file old
  · exact ⟨stored, named, sound, rfl⟩

theorem tick_filed : tick.Keeps Filed fun _ => True := fun _ filed => ⟨filed, fun _ _ => trivial⟩

theorem issue_filed : issue.Keeps Filed fun _ => True := fun _ filed => ⟨filed, fun _ _ => trivial⟩

theorem save_filed (owner name : String) {d : Document} (sound : d.Sound) (description : Option String) :
    (save owner name d description).Keeps Filed fun _ => True := by
  refine tick_filed.bind fun now _ => issue_filed.bind fun id _ => ?_
  split
  next => exact Act.keeps_throw
  next =>
    refine .bind (put_filed ?_) fun _ _ => Act.keeps_pure trivial
    exact sound

theorem update_filed (owner id : String) {changes : StoredChanges}
    (sound : ∀ d, changes.document = some d → d.Sound) : (update owner id changes).Keeps Filed fun _ => True := by
  have fetch : (fetch owner id).Keeps Filed fun found => ∀ back, found = some back → back.document.Sound := by
    refine .of_out fun s r after filed done => ?_
    obtain ⟨rfl, -⟩ := fetch_out done
    refine ⟨filed, ?_⟩
    rintro _ rfl back rfl
    exact (filed.fetched done).2.2
  refine fetch.bind fun found read => ?_
  split
  next => exact Act.keeps_throw
  next back =>
    refine tick_filed.bind fun now _ => .bind (put_filed ?_) fun _ _ => Act.keeps_pure trivial
    exact StoredDocument.holds_getD (read back rfl) sound

theorem delete_filed (owner id : String) : (delete owner id).Keeps Filed fun _ => True := by
  refine .bind (Act.keeps_ofExcept (Q := fun _ => True) fun _ _ => trivial) fun path _ => ?_
  refine .bind Act.keeps_get fun s filed => ?_
  split
  next => exact Act.keeps_pure trivial
  next =>
    refine .bind (Act.keeps_set ?_) fun _ _ => Act.keeps_pure trivial
    exact fun file mem => filed file (List.mem_of_mem_filter mem)

/-- A record is written where it was read, as it bears the owner and the id of its file. -/
theorem update_confined (named : owner ≠ "") (filed : s.Filed) (id : String) (changes : StoredChanges) :
    (update owner id changes).Confined (directory owner) s := by
  refine (fetch_confined named id).bind ?_
  intro found mid done
  split
  next => exact Act.confined_throw _
  next current =>
    refine tick_confined.bind ?_
    intro now _ _
    refine Act.Confined.bind (put_confined named (filed.fetched done).1) ?_
    intro _ _ _
    exact Act.confined_pure _

end Store

/-! ### All calls -/

namespace StoreCall

/-- Who makes a call. -/
def owner : StoreCall → String
  | save owner .. | update owner .. | delete owner _ | fetch owner _ | list owner => owner

/-- The flowcharts that are given are sound. -/
def Sound : StoreCall → Prop
  | save _ _ d _ => d.Sound
  | update _ _ changes => ∀ d, changes.document = some d → d.Sound
  | delete .. | fetch .. | list _ => True

/-- The store after calls that are made one after the other. -/
def reach (calls : List StoreCall) (s : Store) : Store := calls.foldl (fun s call => (call.run s).2) s

/-- A call sees and changes the files in the directory of its owner only. -/
structure Confined (call : StoreCall) (directory : Path) (s : Store) : Prop where
  sees : call.run (s.only directory) = ((call.run s).1, (call.run s).2.only directory)
  keeps : (call.run s).2.files.outside directory = s.files.outside directory

variable {call : StoreCall} {s : Store}

theorem filed_run (sound : call.Sound) (filed : s.Filed) : (call.run s).2.Filed := by
  cases call with
  | save owner name d description => exact (Store.save_filed owner name sound description s filed).1
  | update owner id changes => exact (Store.update_filed owner id sound s filed).1
  | delete owner id => exact (Store.delete_filed owner id s filed).1
  | fetch owner id => exact (Store.fetch_reads owner id Store.Filed s filed).1
  | list owner => exact (Store.list_reads owner Store.Filed s filed).1

theorem filed_reach {calls : List StoreCall} (sound : ∀ call ∈ calls, call.Sound) (filed : s.Filed) :
    (reach calls s).Filed := by
  induction calls generalizing s with
  | nil => exact filed
  | cons call calls ih =>
    obtain ⟨here, rest⟩ := List.forall_mem_cons.mp sound
    exact ih rest (filed_run here filed)

theorem confined_of_act {directory : Path} {act : Act Store α} {f : Except Failure α → StoreAnswer}
    (confined : act.Confined directory s) (runs : ∀ s, call.run s = (f (act.out s).1, (act.out s).2)) :
    call.Confined directory s where
  sees := by rw [runs, runs, confined.sees]
  keeps := by
    rw [runs]
    exact confined.keeps

theorem confined (named : call.owner ≠ "") (filed : s.Filed) : call.Confined (Store.directory call.owner) s := by
  cases call with
  | save owner name d description =>
    exact confined_of_act (Store.save_confined named name d description) fun _ => rfl
  | update owner id changes => exact confined_of_act (Store.update_confined named filed id changes) fun _ => rfl
  | delete owner id => exact confined_of_act (Store.delete_confined named id) fun _ => rfl
  | fetch owner id => exact confined_of_act (Store.fetch_confined named id) fun _ => rfl
  | list owner =>
    exact confined_of_act (f := fun r => .listed (r.map (List.map StoredDocument.summary)))
      (Store.list_confined named) fun _ => rfl

end StoreCall

/-- What the name of an owner leads to. -/
structure Store.Confines (s : Store) (owner : String) : Prop where
  /-- Every flowchart of the owner has a file in the directory of the owner. -/
  files : ∀ id, ∃ place name, path owner id = .ok place ∧ Path.IsName name ∧
    place.normal = directory owner ++ [name]
  apart : ∀ other, other ≠ "" → directory other = directory owner → other = owner
  /-- That directory is one in the directory of the store, with two exceptions. -/
  below : (∃ name, Path.IsName name ∧ directory owner = [name]) ↔ owner ≠ "." ∧ owner ≠ ".."
  calls : Path.IsPlain owner → ∀ call : StoreCall, call.owner = owner → call.Confined (directory owner) s

/-- Whatever calls were made in a store that was empty, an owner sees and changes a single directory. -/
theorem StoreCall.reach_confines {s : Store} (empty : s.files = []) {calls : List StoreCall}
    (sound : ∀ call ∈ calls, call.Sound) {owner : String} (named : owner ≠ "") : (reach calls s).Confines owner := by
  have filed : s.Filed := by
    intro file mem
    rw [empty] at mem
    cases mem
  refine ⟨?_, ?_, Store.directory_isName_iff named, ?_⟩
  · intro id
    exact ⟨_, _, Store.path_eq named id, Store.fileName_isName id, Store.place_normal owner id⟩
  · intro other otherNamed same
    exact Store.directory_injective otherNamed named same
  · rintro - call rfl
    exact confined named (filed_reach sound filed)

/-- An owner whose name is that of the directory around the store has files there. -/
theorem StoreCall.reach_confines_around :
    let s : Store := { root := "store", clock := fun _ => ⟨0, some 0⟩, mint := fun _ => "flow" }
    let calls : List StoreCall := [.save ".." "Flow" {} none]
    (reach calls s).Confines ".." ∧ (reach calls s).files.map Prod.fst = [["..", "flow.json"]] ∧
      ¬∃ name, Path.IsName name ∧ Store.directory ".." = [name] := by
  intro s calls
  have sound : ∀ call ∈ calls, call.Sound := List.forall_mem_singleton.mpr StoredDocument.sound_sample
  have named : ".." ≠ "" := by decide
  have confines : (reach calls s).Confines ".." := reach_confines rfl sound named
  exact ⟨confines, by decide +kernel, fun below => (confines.below.mp below).2 rfl⟩

end Flowchart
