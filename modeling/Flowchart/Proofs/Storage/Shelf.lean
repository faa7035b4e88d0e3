import Flowchart.Proofs.Keyed
import Flowchart.Proofs.Storage.Paths
import Flowchart.Proofs.Storage.Records

/-!
# The store as a map

* `StoreCall`: the calls of the store; `StoreCall.play` makes them one after the other.
* `Shelf`: a map from owners and ids to records. `Shelf.Serves` says what every call comes to on such a map.
* `Store.Shelves`: the files of a store are those of the records of a list, which give the map. What else is asked of
  the records is a parameter.
* `Store.play_serves`: a store that was empty serves every run of calls as a map does.
-/

namespace Flowchart

/-! ### Calls -/

inductive StoreCall where
  | save (owner name : String) (document : Document) (description : Option String)
  | update (owner id : String) (changes : StoredChanges)
  | delete (owner id : String)
  | fetch (owner id : String)
  | list (owner : String)

/-- What a call comes to. A list shows the summaries of records. -/
inductive StoreAnswer where
  | stored (r : Except Failure StoredDocument)
  | deleted (r : Except Failure Bool)
  | found (r : Except Failure (Option StoredDocument))
  | listed (r : Except Failure (List Json))

/-- Names are not empty, versions are not negative, and flowcharts were read. -/
structure StoredChanges.Proper (changes : StoredChanges) : Prop where
  name : ∀ name, changes.name = some name → name ≠ ""
  document : ∀ d, changes.document = some d → d.IsRead
  version : ∀ version, changes.version = some version → 0 ≤ version

namespace StoreCall

def run (call : StoreCall) (s : Store) : StoreAnswer × Store :=
  match call with
  | save owner name d description =>
    let out := (Store.save owner name d description).out s
    (.stored out.1, out.2)
  | update owner id changes =>
    let out := (Store.update owner id changes).out s
    (.stored out.1, out.2)
  | delete owner id =>
    let out := (Store.delete owner id).out s
    (.deleted out.1, out.2)
  | fetch owner id =>
    let out := (Store.fetch owner id).out s
    (.found out.1, out.2)
  | list owner =>
    let out := (Store.list owner).out s
    (.listed (out.1.map (List.map StoredDocument.summary)), out.2)

/-- The answers to calls that are made one after the other. -/
def play : List StoreCall → Store → List StoreAnswer
  | [], _ => []
  | call :: calls, s => (call.run s).1 :: play calls (call.run s).2

/-- The owner's name is a plain part of a path, and what is written is proper. -/
def Proper : StoreCall → Prop
  | save owner name d _ => Path.IsPlain owner ∧ name ≠ "" ∧ d.IsRead
  | update owner _ changes => Path.IsPlain owner ∧ changes.Proper
  | delete owner _ => Path.IsPlain owner
  | fetch owner _ => Path.IsPlain owner
  | list owner => Path.IsPlain owner

end StoreCall

namespace StoredDocument

/-- The record with what it is given anew; the rest stays as it is. -/
def change (changes : StoredChanges) (now : Timestamp) (s : StoredDocument) : StoredDocument :=
  { s with
    name := changes.name.getD s.name
    document := changes.document.getD s.document
    description := changes.description.or s.description
    version := changes.version.getD s.version
    updatedAt := now }

variable {s other : StoredDocument} {changes : StoredChanges} {now : Timestamp}

/-- What holds of the old value and of any new one, holds of the value after the change. -/
theorem holds_getD {P : α → Prop} {given : Option α} {old : α} (before : P old)
    (new : ∀ a, given = some a → P a) : P (given.getD old) := by
  cases given with
  | none => exact before
  | some a => exact new a rfl

theorem Same.change (same : s.Same other) : (s.change changes now).Same (other.change changes now) where
  id := same.id
  ownerId := same.ownerId
  name := congrArg changes.name.getD same.name
  description := congrArg changes.description.or same.description
  version := congrArg changes.version.getD same.version
  createdAt := same.createdAt
  updatedAt := rfl
  document := by
    unfold StoredDocument.change
    cases changes.document with
    | none => exact same.document
    | some d => exact .refl d

theorem Proper.change (proper : s.Proper) (given : changes.Proper) (universal : now.IsUniversal) :
    (s.change changes now).Proper where
  name := holds_getD (P := (· ≠ "")) proper.name given.name
  version := holds_getD (P := (0 ≤ ·)) proper.version given.version
  document := holds_getD proper.document fun d drawn => (given.document d drawn).kept
  createdAt := proper.createdAt
  updatedAt := universal

end StoredDocument

/-- The reader of files did not take back what was printed. -/
def Failure.IsUnreadable (e : Failure) : Prop := ∃ message, e = .reported (.of .serialization message [])

/-! ### Maps -/

/-- The records under their owners and ids. -/
abbrev Shelf := String → String → Option StoredDocument

namespace Shelf

def empty : Shelf := fun _ _ => none

def put (owner id : String) (stored : StoredDocument) (shelf : Shelf) : Shelf := fun o i =>
  if o = owner ∧ i = id then some stored else shelf o i

def drop (owner id : String) (shelf : Shelf) : Shelf := fun o i =>
  if o = owner ∧ i = id then none else shelf o i

/-- `shelf.Serves call answer after`: what a call comes to, and the map after it. A record that the reader of
files does not take back is neither found nor listed nor changed, but it is deleted. -/
inductive Serves (shelf : Shelf) : StoreCall → StoreAnswer → Shelf → Prop
  | save {owner name d description stored} (ownerId : stored.ownerId = owner) (named : stored.name = name)
      (described : stored.description = description) (document : stored.document = d)
      (version : stored.version = 0) (fresh : ∀ o, shelf o stored.id = none) :
      Serves shelf (.save owner name d description) (.stored (.ok stored)) (shelf.put owner stored.id stored)
  | update {owner id changes stored now after} (present : shelf owner id = some stored)
      (readable : stored.ReadsBack) (changed : after.Same (stored.change changes now)) :
      Serves shelf (.update owner id changes) (.stored (.ok after)) (shelf.put owner id after)
  | updateMissing {owner id changes} (absent : shelf owner id = none) :
      Serves shelf (.update owner id changes) (.stored (.error (Store.notFound "Document" owner id))) shelf
  | updateUnreadable {owner id changes stored e} (present : shelf owner id = some stored)
      (deep : ¬stored.ReadsBack) (unreadable : e.IsUnreadable) :
      Serves shelf (.update owner id changes) (.stored (.error e)) shelf
  | delete {owner id stored} (present : shelf owner id = some stored) :
      Serves shelf (.delete owner id) (.deleted (.ok true)) (shelf.drop owner id)
  | deleteMissing {owner id} (absent : shelf owner id = none) :
      Serves shelf (.delete owner id) (.deleted (.ok false)) shelf
  | fetch {owner id stored found} (present : shelf owner id = some stored) (readable : stored.ReadsBack)
      (same : found.Same stored) : Serves shelf (.fetch owner id) (.found (.ok (some found))) shelf
  | fetchMissing {owner id} (absent : shelf owner id = none) :
      Serves shelf (.fetch owner id) (.found (.ok none)) shelf
  | fetchUnreadable {owner id stored e} (present : shelf owner id = some stored) (deep : ¬stored.ReadsBack)
      (unreadable : e.IsUnreadable) : Serves shelf (.fetch owner id) (.found (.error e)) shelf
  | list {owner found} {live : List StoredDocument}
      (readable : ∀ id stored, shelf owner id = some stored → stored.ReadsBack) (once : live.Nodup)
      (mem : ∀ stored, stored ∈ live ↔ shelf owner stored.id = some stored)
      (summaries : found.Perm (live.map StoredDocument.summary)) :
      Serves shelf (.list owner) (.listed (.ok found)) shelf
  | listUnreadable {owner id stored e} (present : shelf owner id = some stored) (deep : ¬stored.ReadsBack)
      (unreadable : e.IsUnreadable) : Serves shelf (.list owner) (.listed (.error e)) shelf

/-- The answers of a map to calls that are made one after the other. -/
inductive Answers : Shelf → List StoreCall → List StoreAnswer → Prop
  | nil (shelf) : Answers shelf [] []
  | cons {shelf call answer after calls answers} (serves : Serves shelf call answer after)
      (rest : Answers after calls answers) : Answers shelf (call :: calls) (answer :: answers)

end Shelf

/-! ### Lists of records -/

namespace StoredDocument

/-- Whether the record is that of an owner under an id. -/
def isAt (owner id : String) (s : StoredDocument) : Bool := s.ownerId == owner && s.id == id

theorem isAt_iff {owner id : String} {s : StoredDocument} :
    s.isAt owner id = true ↔ s.ownerId = owner ∧ s.id = id := by
  simp [isAt]

theorem isAt_self (s : StoredDocument) : s.isAt s.ownerId s.id = true := isAt_iff.mpr ⟨rfl, rfl⟩

/-- The file of a record. -/
def file (s : StoredDocument) : Path × String := ((Store.place s.ownerId s.id).normal, s.render)

theorem file_eq_iff {owner id : String} {s : StoredDocument} (owned : s.ownerId ≠ "") (named : owner ≠ "") :
    s.file.1 = (Store.place owner id).normal ↔ s.isAt owner id = true :=
  (Store.filePath_eq_iff owned named).trans isAt_iff.symm

end StoredDocument

namespace Shelf

variable {written : List StoredDocument} {owner id : String}

/-- The map that a list of records gives. -/
def of (written : List StoredDocument) : Shelf := fun owner id => written.find? (StoredDocument.isAt owner id)

/-- The records of an owner. -/
def owned (written : List StoredDocument) (owner : String) : List StoredDocument :=
  written.filter fun r => r.ownerId == owner

theorem mem_owned {r : StoredDocument} : r ∈ owned written owner ↔ r ∈ written ∧ r.ownerId = owner := by
  simp [owned]

theorem of_eq_some {stored : StoredDocument} (found : of written owner id = some stored) :
    stored ∈ written ∧ stored.ownerId = owner ∧ stored.id = id :=
  ⟨List.mem_of_find?_eq_some found, StoredDocument.isAt_iff.mp (List.find?_some found)⟩

theorem of_append {new : StoredDocument} (free : of written new.ownerId new.id = none) :
    of (written ++ [new]) = (of written).put new.ownerId new.id new := by
  funext owner id
  unfold of put at *
  rw [List.find?_append]
  by_cases same : owner = new.ownerId ∧ id = new.id
  · obtain ⟨rfl, rfl⟩ := same
    rw [free, if_pos ⟨rfl, rfl⟩, Option.none_or, List.find?_cons_of_pos (StoredDocument.isAt_self new)]
  · have other : ¬new.isAt owner id = true := fun at_ => by
      obtain ⟨rfl, rfl⟩ := StoredDocument.isAt_iff.mp at_
      exact same ⟨rfl, rfl⟩
    rw [if_neg same, List.find?_cons_of_neg other, List.find?_nil, Option.or_none]

/-- A record that takes the place of the one under its owner and id. -/
theorem of_replace (new : StoredDocument) (present : (of written new.ownerId new.id).isSome) :
    of (written.map fun r => if r.isAt new.ownerId new.id then new else r) =
      (of written).put new.ownerId new.id new := by
  -- the new record is under the owner and the id of the one whose place it takes
  have keeps (owner id : String) (r : StoredDocument) :
      (if r.isAt new.ownerId new.id then new else r).isAt owner id = r.isAt owner id := by
    split
    next at_ =>
      obtain ⟨sameOwner, sameId⟩ := StoredDocument.isAt_iff.mp at_
      rw [StoredDocument.isAt, StoredDocument.isAt, sameOwner, sameId]
    next => rfl
  funext owner id
  unfold of put at *
  simp only [List.find?_map, Function.comp_def, keeps]
  by_cases same : owner = new.ownerId ∧ id = new.id
  · obtain ⟨rfl, rfl⟩ := same
    obtain ⟨old, found⟩ := Option.isSome_iff_exists.mp present
    rw [if_pos ⟨rfl, rfl⟩, found, Option.map_some, if_pos (List.find?_some found)]
  · rw [if_neg same]
    cases found : written.find? (StoredDocument.isAt owner id) with
    | none => rfl
    | some r =>
      have at_ := StoredDocument.isAt_iff.mp (List.find?_some found)
      have other : ¬r.isAt new.ownerId new.id = true := fun here => by
        obtain ⟨sameOwner, sameId⟩ := StoredDocument.isAt_iff.mp here
        exact same ⟨at_.1.symm.trans sameOwner, at_.2.symm.trans sameId⟩
      rw [Option.map_some, if_neg other]

theorem of_filter (owner id : String) :
    of (written.filter fun r => !r.isAt owner id) = (of written).drop owner id := by
  funext o i
  unfold of drop
  rw [List.find?_filter]
  by_cases same : o = owner ∧ i = id
  · obtain ⟨rfl, rfl⟩ := same
    rw [if_pos ⟨rfl, rfl⟩]
    simp
  · rw [if_neg same]
    refine congrArg (List.find? · written) (funext fun r => ?_)
    cases at_ : r.isAt o i with
    | false => simp
    | true =>
      obtain ⟨rfl, rfl⟩ := StoredDocument.isAt_iff.mp at_
      have other : ¬r.isAt owner id = true := fun here => same (StoredDocument.isAt_iff.mp here)
      simp [other]

end Shelf

/-! ### The files of a store -/

namespace Store

/-- The files of the store are those of the records of a list. The records have owners and are sound, whatever else
is asked of them, their ids were issued, and the store issues ids that differ and shows universal time. -/
structure Shelves (Fit : StoredDocument → Prop) (s : Store) (written : List StoredDocument) : Prop where
  files : s.files = written.map StoredDocument.file
  owned : ∀ r ∈ written, r.ownerId ≠ ""
  sound : ∀ r ∈ written, r.Sound
  fit : ∀ r ∈ written, Fit r
  distinct : (written.map StoredDocument.id).Nodup
  issued : ∀ r ∈ written, ∃ n ≤ s.issued, r.id = s.mint n
  fresh : Function.Injective s.mint
  clock : ∀ n, (s.clock n).IsUniversal

variable {Fit : StoredDocument → Prop} {s : Store} {written : List StoredDocument} {owner id : String}

namespace Shelves

variable (shelves : s.Shelves Fit written)

include shelves

/-- Only one record has an id. -/
theorem of_eq_some_iff {stored : StoredDocument} :
    Shelf.of written owner id = some stored ↔ stored ∈ written ∧ stored.ownerId = owner ∧ stored.id = id := by
  refine ⟨Shelf.of_eq_some, ?_⟩
  rintro ⟨mem, rfl, rfl⟩
  cases found : Shelf.of written stored.ownerId stored.id with
  | none => exact absurd (StoredDocument.isAt_self stored) (List.find?_eq_none.mp found stored mem)
  | some other =>
    obtain ⟨otherMem, -, sameId⟩ := Shelf.of_eq_some found
    rw [eq_of_key_eq shelves.distinct otherMem mem sameId]

/-- The text of a file is that of the record under its owner and id. -/
theorem read?_eq (named : owner ≠ "") (id : String) :
    s.files.read? (place owner id) = (Shelf.of written owner id).map StoredDocument.render := by
  rw [Files.read?, shelves.files, Shelf.of]
  have each := shelves.owned
  clear shelves
  induction written with
  | nil => rfl
  | cons r written ih =>
    obtain ⟨owned, each⟩ := List.forall_mem_cons.mp each
    rw [List.map_cons, StoredDocument.file, List.lookup_cons, List.find?_cons]
    have same : ((place owner id).normal == (place r.ownerId r.id).normal) = r.isAt owner id := by
      rw [Bool.eq_iff_iff, beq_iff_eq, eq_comm, ← StoredDocument.file_eq_iff owned named, StoredDocument.file]
    rw [same, ih each]
    cases r.isAt owner id <;> rfl

theorem text?_eq (named : owner ≠ "") (id : String) :
    s.text? owner id = (Shelf.of written owner id).map StoredDocument.render :=
  (text?_of_path (path_eq named id) s).trans (shelves.read?_eq named id)

/-- What is read from the file of a record. -/
theorem parse_eq {stored : StoredDocument} (mem : stored ∈ written) (place : Path) :
    (s.parse place stored.render = .ok stored.reread ∧ stored.IsReadable) ∨
      ∃ e, s.parse place stored.render = .error e ∧ e.IsUnreadable ∧ ¬stored.IsReadable := by
  have sound := shelves.sound stored mem
  by_cases readable : stored.IsReadable
  · rw [parse, sound.parse_render_eq readable]
    exact .inl ⟨rfl, readable⟩
  · unfold parse
    cases parsed : StoredDocument.parse s.now stored.render with
    | ok back => exact absurd (sound.isReadable_of_parse parsed) readable
    | error count => exact .inr ⟨_, rfl, ⟨_, rfl⟩, readable⟩

end Shelves

/-! ### What a call does to the files -/

section

variable (named : owner ≠ "")

include named

theorem fetch_eq (id : String) : (fetch owner id).out s = match s.files.read? (place owner id) with
    | none => (.ok none, s)
    | some text => ((s.parse (place owner id) text).map some, s) := by
  unfold fetch
  rw [path_eq named, Act.out_bind_of_ok (Act.out_ofExcept _ s), Act.out_bind_of_ok Act.out_get]
  cases s.files.read? (place owner id) with
  | none => rfl
  | some text =>
    dsimp only
    rw [Act.out_bind, Act.out_ofExcept]
    cases s.parse (place owner id) text <;> rfl

/-- A record that can be read is fetched from its file. -/
theorem fetch_eq_of_file {id : String} {stored : StoredDocument} (sound : stored.Sound) (readable : stored.IsReadable)
    (file : s.files.read? (place owner id) = some stored.render) :
    (fetch owner id).out s = (.ok (some stored.reread), s) := by
  rw [fetch_eq named, file]
  dsimp only
  rw [parse, sound.parse_render_eq readable]
  rfl

omit named in
/-- So is an empty flowchart as it is first stored. -/
theorem fetch_sample (file : s.files.read? (place "owner" "1") = some StoredDocument.sample.render) :
    (fetch "owner" "1").out s = (.ok (some StoredDocument.sample.reread), s) :=
  fetch_eq_of_file (by decide) StoredDocument.Sound.sample ⟨by decide, by decide⟩ file

theorem save_eq {name : String} (filled : name ≠ "") (d : Document) (description : Option String) :
    let stored : StoredDocument :=
      { id := s.mint (s.issued + 1), ownerId := owner, name, description, document := d, createdAt := s.now
        updatedAt := s.now }
    (save owner name d description).out s = (.ok stored,
      { s with
        readings := s.readings + 1
        issued := s.issued + 1
        files := s.files.write (place owner stored.id) stored.render }) := by
  intro stored
  have checked : (Check.name (.string name)).under (.key "name") = .ok name := by
    rw [Check.name_string (by simpa using filled)]
    rfl
  unfold save
  rw [checked]
  unfold put
  simp only [path_eq named]
  rfl

theorem delete_eq (id : String) : (delete owner id).out s = match s.files.read? (place owner id) with
    | none => (.ok false, s)
    | some _ => (.ok true, { s with files := s.files.erase (place owner id) }) := by
  unfold delete
  rw [path_eq named, Act.out_bind_of_ok (Act.out_ofExcept _ s), Act.out_bind_of_ok Act.out_get]
  cases s.files.read? (place owner id) <;> rfl

end

/-- A record that is found is written anew, under its own owner and id. -/
theorem update_eq {current : StoredDocument} (changes : StoredChanges)
    (found : (fetch owner id).out s = (.ok (some current), s)) (named : current.ownerId ≠ "") :
    (update owner id changes).out s = (.ok (current.change changes s.now),
      { s with
        readings := s.readings + 1
        files := s.files.write (place current.ownerId current.id) (current.change changes s.now).render }) := by
  unfold update
  rw [Act.out_bind_of_ok found]
  unfold put
  simp only [path_eq named]
  rfl

theorem update_of_missing (changes : StoredChanges) (found : (fetch owner id).out s = (.ok none, s)) :
    (update owner id changes).out s = (.error (notFound "Document" owner id), s) := by
  unfold update
  rw [Act.out_bind_of_ok found]
  rfl

theorem update_of_error {e : Failure} (changes : StoredChanges) (found : (fetch owner id).out s = (.error e, s)) :
    (update owner id changes).out s = (.error e, s) := by
  unfold update
  rw [Act.out_bind, found]

namespace Shelves

variable (new : StoredDocument) (shelves : s.Shelves Fit written)

include shelves

theorem write_new (named : new.ownerId ≠ "") (absent : Shelf.of written new.ownerId new.id = none) :
    s.files.write (place new.ownerId new.id) new.render = (written ++ [new]).map StoredDocument.file := by
  rw [Files.write, shelves.read?_eq named, absent, shelves.files, List.map_append]
  rfl

theorem write_replace (named : new.ownerId ≠ "") (present : (Shelf.of written new.ownerId new.id).isSome) :
    s.files.write (place new.ownerId new.id) new.render =
      (written.map fun r => if r.isAt new.ownerId new.id then new else r).map StoredDocument.file := by
  rw [Files.write, shelves.read?_eq named, Option.isSome_map, if_pos present, shelves.files, List.map_map,
    List.map_map]
  refine List.map_congr_left fun r mem => ?_
  rw [Function.comp_apply, Function.comp_apply]
  have same : r.file.1 = (place new.ownerId new.id).normal ↔ r.isAt new.ownerId new.id = true :=
    StoredDocument.file_eq_iff (shelves.owned r mem) named
  by_cases at_ : r.isAt new.ownerId new.id = true
  · rw [if_pos (same.mpr at_), if_pos at_, same.mpr at_, StoredDocument.file]
  · rw [if_neg (mt same.mp at_), if_neg at_]

theorem erase (named : owner ≠ "") (id : String) :
    s.files.erase (place owner id) = (written.filter fun r => !r.isAt owner id).map StoredDocument.file := by
  rw [Files.erase, shelves.files, List.filter_map]
  refine congrArg (List.map _) (List.filter_congr fun r mem => ?_)
  simp [StoredDocument.file_eq_iff (shelves.owned r mem) named]

/-! #### What a call keeps -/

/-- A new record, under an id that was not issued before. -/
theorem add (named : new.ownerId ≠ "") (sound : new.Sound) (fit : Fit new)
    (issued : new.id = s.mint (s.issued + 1)) :
    (∀ owner, Shelf.of written owner new.id = none) ∧
      Shelves Fit { s with
        readings := s.readings + 1
        issued := s.issued + 1
        files := s.files.write (place new.ownerId new.id) new.render } (written ++ [new]) := by
  have unused : ∀ r ∈ written, r.id ≠ new.id := by
    intro r mem same
    obtain ⟨n, before, minted⟩ := shelves.issued r mem
    have := shelves.fresh (minted.symm.trans (same.trans issued))
    omega
  have absent (owner : String) : Shelf.of written owner new.id = none :=
    List.find?_eq_none.mpr fun r mem at_ => unused r mem (StoredDocument.isAt_iff.mp at_).2
  have both {Q : StoredDocument → Prop} (before : ∀ r ∈ written, Q r) (here : Q new) : ∀ r ∈ written ++ [new], Q r :=
    List.forall_mem_append.mpr ⟨before, List.forall_mem_singleton.mpr here⟩
  refine ⟨absent, shelves.write_new new named (absent _), both shelves.owned named, both shelves.sound sound,
    both shelves.fit fit, ?_, both (fun r mem => ?_) ⟨_, le_rfl, issued⟩, shelves.fresh, shelves.clock⟩
  · rw [List.map_append, List.nodup_append]
    refine ⟨shelves.distinct, List.nodup_singleton _, ?_⟩
    rintro _ mem _ last rfl
    obtain ⟨r, mem, same⟩ := List.mem_map.mp mem
    exact unused r mem (same.trans (List.mem_singleton.mp last))
  · obtain ⟨n, before, minted⟩ := shelves.issued r mem
    exact ⟨n, Nat.le_succ_of_le before, minted⟩

/-- A record in the place of the one under its owner and id. -/
theorem replace (named : new.ownerId ≠ "") (sound : new.Sound) (fit : Fit new)
    (present : (Shelf.of written new.ownerId new.id).isSome) :
    Shelves Fit { s with
      readings := s.readings + 1
      files := s.files.write (place new.ownerId new.id) new.render }
      (written.map fun r => if r.isAt new.ownerId new.id then new else r) := by
  have ids : (written.map fun r => if r.isAt new.ownerId new.id then new else r).map StoredDocument.id =
      written.map StoredDocument.id := by
    rw [List.map_map]
    refine List.map_congr_left fun r _ => ?_
    simp only [Function.comp_apply]
    split
    next at_ => exact (StoredDocument.isAt_iff.mp at_).2.symm
    next => rfl
  have each {Q : StoredDocument → Prop} (before : ∀ r ∈ written, Q r) (here : Q new) :
      ∀ r ∈ written.map fun r => if r.isAt new.ownerId new.id then new else r, Q r := by
    refine List.forall_mem_map.mpr fun r mem => ?_
    split
    · exact here
    · exact before r mem
  obtain ⟨old, found⟩ := Option.isSome_iff_exists.mp present
  obtain ⟨mem, -, same⟩ := Shelf.of_eq_some found
  exact ⟨shelves.write_replace new named present, each shelves.owned named, each shelves.sound sound,
    each shelves.fit fit, ids ▸ shelves.distinct, each shelves.issued (same ▸ shelves.issued old mem),
    shelves.fresh, shelves.clock⟩

theorem remove (named : owner ≠ "") (id : String) :
    Shelves Fit { s with files := s.files.erase (place owner id) } (written.filter fun r => !r.isAt owner id) where
  files := shelves.erase named id
  owned r mem := shelves.owned r (List.mem_of_mem_filter mem)
  sound r mem := shelves.sound r (List.mem_of_mem_filter mem)
  fit r mem := shelves.fit r (List.mem_of_mem_filter mem)
  distinct := shelves.distinct.sublist (List.filter_sublist.map _)
  issued r mem := shelves.issued r (List.mem_of_mem_filter mem)
  fresh := shelves.fresh
  clock := shelves.clock

end Shelves

/-! ### Lists of an owner -/

/-- Times of universal time can be put in order. -/
theorem sortByTime_perm {found : List StoredDocument} (universal : ∀ r ∈ found, r.updatedAt.IsUniversal) :
    ∃ sorted, sortByTime found = .ok sorted ∧ sorted.Perm found := by
  cases found with
  | nil => exact ⟨[], rfl, .refl _⟩
  | cons first rest =>
    have comparable : (rest.all fun r => first.updatedAt.comparable r.updatedAt) = true := by
      rw [List.all_eq_true]
      intro r mem
      rw [Timestamp.comparable, (universal first List.mem_cons_self).offset,
        (universal r (List.mem_cons_of_mem first mem)).offset]
      rfl
    rw [sortByTime, if_pos comparable]
    exact ⟨_, rfl, List.mergeSort_perm _ _⟩

theorem list_eq (named : owner ≠ "") : (list owner).out s =
    ((do
      let found ← ((s.files.inDirectory [percentEncoded owner]).filter fun file => file.1.endsWith ".json").mapM
        fun (name, text) => s.parse ([percentEncoded owner] ++ [name]) text
      sortByTime found), s) := by
  have directory : ownerPath owner = .ok [percentEncoded owner] := if_neg (by simpa using named)
  unfold list
  rw [directory, Act.out_bind_of_ok (Act.out_ofExcept _ s), Act.out_bind_of_ok Act.out_get]
  dsimp only
  rw [Act.out_bind, Act.out_ofExcept]
  cases ((s.files.inDirectory [percentEncoded owner]).filter fun file => file.1.endsWith ".json").mapM
    fun (name, text) => s.parse ([percentEncoded owner] ++ [name]) text with
  | error e => rfl
  | ok found => exact Act.out_ofExcept _ s

/-- The files in the directory of an owner are those of the owner's records. -/
theorem Shelves.inDirectory (shelves : s.Shelves Fit written) (named : owner ≠ "") :
    (s.files.inDirectory [percentEncoded owner]).filter (fun file => file.1.endsWith ".json") =
      (Shelf.owned written owner).map fun r => (fileName r.id, r.render) := by
  have listed : s.files.inDirectory [percentEncoded owner] = written.filterMap fun r =>
      if r.ownerId = owner then some (fileName r.id, r.render) else none := by
    rw [Files.inDirectory, shelves.files, List.filterMap_map]
    refine List.filterMap_congr fun r mem => ?_
    simp only [Function.comp_apply, StoredDocument.file, place_normal, List.reverse_append, List.reverse_singleton,
      List.singleton_append, List.reverse_reverse]
    exact if_congr ⟨directory_injective (shelves.owned r mem) named, congrArg directory⟩ rfl rfl
  rw [listed]
  clear shelves listed
  induction written with
  | nil => rfl
  | cons r written ih =>
    rw [List.filterMap_cons, Shelf.owned, List.filter_cons, ← Shelf.owned]
    by_cases own : r.ownerId = owner
    · simp [own, fileName_endsWith, ih]
    · simp [own, ih]

/-! ### What is read -/

namespace Shelves

variable (shelves : s.Shelves Fit written) (named : owner ≠ "")

include shelves named

theorem fetch_cases (id : String) :
    (Shelf.of written owner id = none ∧ (fetch owner id).out s = (.ok none, s)) ∨
      ∃ stored, Shelf.of written owner id = some stored ∧
        ((stored.IsReadable ∧ (fetch owner id).out s = (.ok (some stored.reread), s)) ∨
          ∃ e, ¬stored.IsReadable ∧ e.IsUnreadable ∧ (fetch owner id).out s = (.error e, s)) := by
  rw [fetch_eq named, shelves.read?_eq named]
  cases found : Shelf.of written owner id with
  | none => exact .inl ⟨rfl, rfl⟩
  | some stored =>
    refine .inr ⟨stored, rfl, ?_⟩
    simp only [Option.map_some]
    obtain ⟨read, readable⟩ | ⟨e, refused, unreadable, deep⟩ :=
      shelves.parse_eq (Shelf.of_eq_some found).1 (place owner id)
    · exact .inl ⟨readable, by rw [read]; rfl⟩
    · exact .inr ⟨e, deep, unreadable, by rw [refused]; rfl⟩

/-- One record that is not read keeps all others of its owner from being listed. -/
theorem list_cases :
    (∃ sorted, (Store.list owner).out s = (.ok sorted, s) ∧
        sorted.Perm ((Shelf.owned written owner).map StoredDocument.reread) ∧
        ∀ r ∈ Shelf.owned written owner, r.IsReadable) ∨
      ∃ stored ∈ Shelf.owned written owner, ∃ e, (Store.list owner).out s = (.error e, s) ∧ e.IsUnreadable ∧
        ¬stored.IsReadable := by
  have out : (Store.list owner).out s =
      ((do
        let found ← (Shelf.owned written owner).mapM fun r =>
          s.parse ([percentEncoded owner] ++ [fileName r.id]) r.render
        sortByTime found), s) := by
    rw [list_eq named, shelves.inDirectory named, List.mapM_map, Function.comp_def]
  obtain ⟨read, readable⟩ | ⟨stored, mem, e, refused, unreadable, fails⟩ := mapM_cases fun r mem =>
    shelves.parse_eq (Shelf.mem_owned.mp mem).1 ([percentEncoded owner] ++ [fileName r.id])
  · obtain ⟨sorted, order, perm⟩ := sortByTime_perm (List.forall_mem_map.mpr fun r mem =>
      (shelves.sound r (Shelf.mem_owned.mp mem).1).reread.updatedAt)
    refine .inl ⟨sorted, ?_, perm, readable⟩
    rw [out, read]
    simp only [bind, Except.bind, order]
  · refine .inr ⟨stored, mem, e, ?_, unreadable, fails⟩
    rw [out, refused]
    rfl

end Shelves

/-! ### Every call is served -/

/-- The call comes to what it comes to on the map, and leaves the files of the map after it. -/
def Served (s : Store) (written : List StoredDocument) (call : StoreCall) : Prop :=
  ∃ after, (call.run s).2.Shelves StoredDocument.Proper after ∧
    (Shelf.of written).Serves call (call.run s).1 (Shelf.of after)

theorem served_of_run {call : StoreCall} {answer : StoreAnswer} {t : Store} {after : List StoredDocument}
    (run : call.run s = (answer, t)) (shelves : t.Shelves StoredDocument.Proper after)
    (serves : (Shelf.of written).Serves call answer (Shelf.of after)) : s.Served written call :=
  ⟨after, by rw [run]; exact shelves, by rw [run]; exact serves⟩

namespace Shelves

variable (shelves : s.Shelves StoredDocument.Proper written) (named : owner ≠ "")

include shelves named

theorem served_fetch (id : String) : s.Served written (.fetch owner id) := by
  obtain ⟨absent, out⟩ | ⟨stored, present, ⟨readable, out⟩ | ⟨e, fails, unreadable, out⟩⟩ :=
    shelves.fetch_cases named id
  · exact served_of_run (by rw [StoreCall.run, out]) shelves (.fetchMissing absent)
  · have same := (shelves.fit stored (Shelf.of_eq_some present).1).same
    exact served_of_run (by rw [StoreCall.run, out]) shelves (.fetch present readable.2 same)
  · have deep := mt (shelves.fit stored (Shelf.of_eq_some present).1).isReadable_iff.mpr fails
    exact served_of_run (by rw [StoreCall.run, out]) shelves (.fetchUnreadable present deep unreadable)

theorem served_save {name : String} {d : Document} (filled : name ≠ "") (isRead : d.IsRead)
    (description : Option String) : s.Served written (.save owner name d description) := by
  let stored : StoredDocument :=
    { id := s.mint (s.issued + 1), ownerId := owner, name, description, document := d, createdAt := s.now
      updatedAt := s.now }
  have proper : stored.Proper := ⟨filled, le_rfl, isRead.kept, shelves.clock _, shelves.clock _⟩
  obtain ⟨absent, added⟩ := shelves.add stored named proper.sound proper rfl
  refine served_of_run (by rw [StoreCall.run, save_eq named filled]) added ?_
  rw [Shelf.of_append (absent owner)]
  exact .save rfl rfl rfl rfl rfl absent

theorem served_update {changes : StoredChanges} (given : changes.Proper) (id : String) :
    s.Served written (.update owner id changes) := by
  obtain ⟨absent, out⟩ | ⟨stored, present, ⟨readable, out⟩ | ⟨e, fails, unreadable, out⟩⟩ :=
    shelves.fetch_cases named id
  · exact served_of_run (by rw [StoreCall.run, update_of_missing changes out]) shelves (.updateMissing absent)
  · obtain ⟨mem, rfl, rfl⟩ := Shelf.of_eq_some present
    have proper := shelves.fit stored mem
    have there := Option.isSome_of_eq_some present
    let new := stored.reread.change changes s.now
    have changed : new.Proper := proper.reread.change given (shelves.clock _)
    have replaced := shelves.replace new named changed.sound changed there
    refine served_of_run (by rw [StoreCall.run, update_eq changes out named]; rfl) replaced ?_
    rw [Shelf.of_replace new there]
    exact .update present readable.2 proper.same.change
  · have deep := mt (shelves.fit stored (Shelf.of_eq_some present).1).isReadable_iff.mpr fails
    exact served_of_run (by rw [StoreCall.run, update_of_error changes out]) shelves
      (.updateUnreadable present deep unreadable)

theorem served_delete (id : String) : s.Served written (.delete owner id) := by
  have out := delete_eq (s := s) named id
  rw [shelves.read?_eq named] at out
  cases found : Shelf.of written owner id with
  | none =>
    rw [found] at out
    exact served_of_run (by rw [StoreCall.run, out]; rfl) shelves (.deleteMissing found)
  | some stored =>
    rw [found] at out
    refine served_of_run (by rw [StoreCall.run, out]; rfl) (shelves.remove named id) ?_
    rw [Shelf.of_filter]
    exact .delete found

theorem served_list : s.Served written (.list owner) := by
  have proper {r : StoredDocument} (mem : r ∈ Shelf.owned written owner) : r.Proper :=
    shelves.fit r (Shelf.mem_owned.mp mem).1
  obtain ⟨sorted, out, perm, readable⟩ | ⟨stored, mem, e, out, unreadable, fails⟩ := shelves.list_cases named
  · have run : (StoreCall.list owner).run s = (.listed (.ok (sorted.map StoredDocument.summary)), s) := by
      rw [StoreCall.run, out]
      rfl
    have once : (Shelf.owned written owner).Nodup := (shelves.distinct.of_map _).filter _
    have live (stored : StoredDocument) :
        stored ∈ Shelf.owned written owner ↔ Shelf.of written owner stored.id = some stored := by
      rw [Shelf.mem_owned, shelves.of_eq_some_iff, and_iff_left rfl]
    have same : ((Shelf.owned written owner).map StoredDocument.reread).map StoredDocument.summary =
        (Shelf.owned written owner).map StoredDocument.summary := by
      rw [List.map_map]
      exact List.map_congr_left fun r mem => (proper mem).same.summary_eq
    refine served_of_run run shelves (.list (fun id stored present => ?_) once live (same ▸ perm.map _))
    obtain ⟨mem, owned, -⟩ := Shelf.of_eq_some present
    exact (readable stored (Shelf.mem_owned.mpr ⟨mem, owned⟩)).2
  · have deep := mt (proper mem).isReadable_iff.mpr fails
    obtain ⟨mem, owned⟩ := Shelf.mem_owned.mp mem
    have present := shelves.of_eq_some_iff.mpr ⟨mem, owned, rfl⟩
    exact served_of_run (by rw [StoreCall.run, out]; rfl) shelves (.listUnreadable present deep unreadable)

end Shelves

theorem Shelves.served (shelves : s.Shelves StoredDocument.Proper written) {call : StoreCall}
    (proper : call.Proper) : s.Served written call := by
  cases call with
  | save owner name d description => exact shelves.served_save proper.1.2.1 proper.2.1 proper.2.2 description
  | update owner id changes => exact shelves.served_update proper.1.2.1 proper.2 id
  | delete owner id => exact shelves.served_delete proper.2.1 id
  | fetch owner id => exact shelves.served_fetch proper.2.1 id
  | list owner => exact shelves.served_list proper.2.1

theorem Shelves.answers (shelves : s.Shelves StoredDocument.Proper written) {calls : List StoreCall}
    (proper : ∀ call ∈ calls, call.Proper) : (Shelf.of written).Answers calls (StoreCall.play calls s) := by
  induction calls generalizing s written with
  | nil => exact .nil _
  | cons call calls ih =>
    obtain ⟨after, kept, serves⟩ := shelves.served (proper call List.mem_cons_self)
    exact .cons serves (ih kept fun other mem => proper other (List.mem_cons_of_mem call mem))

/-- An empty store has the files of no records. -/
theorem shelves_nil (empty : s.files = []) (fresh : Function.Injective s.mint)
    (clock : ∀ n, (s.clock n).IsUniversal) : s.Shelves Fit [] :=
  ⟨empty, List.forall_mem_nil _, List.forall_mem_nil _, List.forall_mem_nil _, .nil, List.forall_mem_nil _, fresh,
    clock⟩

end Store

end Flowchart
