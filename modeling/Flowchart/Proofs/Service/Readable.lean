import Flowchart.Proofs.Service.Desk
import Flowchart.Proofs.Storage.Shelf

/-!
# Flowcharts that can be read back

* `Title`: a flowchart and its name. `Store.Stores`: the files of a store are those of sound records, and some
  flowcharts have one, under their names. The theorems `Store.*_stores` say so after each call.
* `Desk.titles`: the flowcharts that were saved in a run and not deleted since, under the names that they were given
  last. `Desk.play_stores`: they have files.
* `Service.Presents`: what fetching a flowchart and listing those of its owner come to, by what is in its file.
* `play_presents`: a flowchart that was saved and not deleted is fetched and listed, unless its name was taken from it,
  or it is nested too deep.
-/

namespace Flowchart

theorem StoredDocument.Sound.change {Named : String → Prop} {changes : StoredChanges} {now : Timestamp}
    {s : StoredDocument} (sound : s.Sound) (fits : changes.Fits Named Document.Sound) (universal : now.IsUniversal) :
    (s.change changes now).Sound where
  version := StoredDocument.holds_getD (P := (0 ≤ ·)) sound.version fits.version
  document := StoredDocument.holds_getD sound.document fits.document
  createdAt := sound.createdAt
  updatedAt := universal

/-- A flowchart, and its name. -/
structure Title where
  key : DocumentKey
  name : String

namespace Title

variable {t : Title} {key : DocumentKey} {name : Option String} {shelf : Shelf} {old new : StoredDocument}

/-- Gives a new name to the flowchart, if it is the one and the name is given. -/
def rename (key : DocumentKey) (name : Option String) (t : Title) : Title :=
  if t.key = key then { t with name := name.getD t.name } else t

theorem rename_none (key : DocumentKey) : rename key none = id := by
  funext t
  unfold rename
  split <;> rfl

/-- The record of the flowchart is there, and bears its name. -/
def IsOn (shelf : Shelf) (t : Title) : Prop :=
  ∃ stored, shelf t.key.owner t.key.id = some stored ∧ stored.name = t.name

theorem isOn_put (key : DocumentKey) (new : StoredDocument) :
    IsOn (shelf.put key.owner key.id new) ⟨key, new.name⟩ := ⟨new, if_pos ⟨rfl, rfl⟩, rfl⟩

theorem IsOn.put (isOn : t.IsOn shelf) (apart : t.key ≠ key) : t.IsOn (shelf.put key.owner key.id new) := by
  obtain ⟨stored, present, same⟩ := isOn
  refine ⟨stored, (if_neg ?_).trans present, same⟩
  exact fun here => apart (congrArg₂ DocumentKey.mk here.1 here.2)

theorem IsOn.drop (isOn : t.IsOn shelf) (apart : t.key ≠ key) : t.IsOn (shelf.drop key.owner key.id) := by
  obtain ⟨stored, present, same⟩ := isOn
  refine ⟨stored, (if_neg ?_).trans present, same⟩
  exact fun here => apart (congrArg₂ DocumentKey.mk here.1 here.2)

theorem IsOn.rename (key : DocumentKey) (isOn : t.IsOn shelf) (present : shelf key.owner key.id = some old)
    (renamed : new.name = name.getD old.name) : (t.rename key name).IsOn (shelf.put key.owner key.id new) := by
  unfold Title.rename
  split
  next here =>
    subst here
    obtain ⟨stored, found, same⟩ := isOn
    cases present.symm.trans found
    rw [← same, ← renamed]
    exact isOn_put t.key new
  next apart => exact isOn.put apart

end Title

namespace Store

variable {titles fewer : List Title} {s after : Store} {owner id name : String} {d : Document}
  {description : Option String}

/-- The files are those of sound records, and each of the flowcharts has one. -/
def Stores (titles : List Title) (s : Store) : Prop :=
  ∃ written, s.Shelves (fun _ => True) written ∧ ∀ t ∈ titles, t.IsOn (Shelf.of written)

theorem Stores.mono (stores : s.Stores titles) (subset : fewer ⊆ titles) : s.Stores fewer := by
  obtain ⟨written, shelves, present⟩ := stores
  exact ⟨written, shelves, fun t mem => present t (subset mem)⟩

/-- What is read from a file is sound. -/
theorem Stores.held (stores : s.Stores titles) {back : StoredDocument} (holds : s.Holds owner id back) :
    back.document.Sound := by
  obtain ⟨written, shelves, -⟩ := stores
  have named := holds.named
  obtain ⟨text, file, parsed⟩ := holds
  rw [shelves.text?_eq named] at file
  obtain ⟨stored, found, rfl⟩ := Option.map_eq_some_iff.1 file
  have sound := (shelves.sound stored (Shelf.of_eq_some found).1).document
  obtain ⟨-, -, -, -, same⟩ := StoredDocument.eq_of_parse_render sound parsed
  exact same ▸ sound.reread

/-- Reading the clock and giving out an id changes no file. -/
theorem Shelves.skip {Fit : StoredDocument → Prop} {written : List StoredDocument} (shelves : s.Shelves Fit written) :
    Shelves Fit { s with readings := s.readings + 1, issued := s.issued + 1 } written :=
  { shelves with
    issued := fun r mem => by
      obtain ⟨n, before, minted⟩ := shelves.issued r mem
      exact ⟨n, Nat.le_succ_of_le before, minted⟩ }

theorem save_out_error {e : Failure} (done : (save owner name d description).out s = (.error e, after)) :
    after = { s with readings := s.readings + 1, issued := s.issued + 1 } := by
  unfold save at done
  have done := Act.out_bind_eq_of_ok tick_out done
  obtain ⟨_, failed, -⟩ | ⟨minted, mid, issued, done⟩ := Act.out_bind_eq done
  · cases failed
  · cases issued
    split at done
    next =>
      cases done
      rfl
    next =>
      obtain ⟨_, failed, -⟩ | ⟨_, _, _, done⟩ := Act.out_bind_eq done
      · obtain ⟨_, missing, -⟩ | ⟨place, _, _, wrote⟩ := Act.out_bind_eq failed
        · exact (Act.ofExcept_out missing).2.symm
        · cases wrote
      · cases done

/-- Only flowcharts with an owner and a name are saved. -/
theorem named_of_save {stored : StoredDocument} (done : (save owner name d description).out s = (.ok stored, after)) :
    owner ≠ "" ∧ name ≠ "" := by
  constructor
  · rintro rfl
    obtain ⟨file, -⟩ := save_out done
    cases file
  · rintro rfl
    cases done

theorem save_stores (sound : d.Sound) (stores : s.Stores titles) {r : Except Failure StoredDocument} :
    (save owner name d description).out s = (r, after) → match r with
      | .ok stored => after.Stores (⟨⟨owner, stored.id⟩, name⟩ :: titles)
      | .error _ => after.Stores titles := by
  intro done
  obtain ⟨written, shelves, present⟩ := stores
  cases r with
  | error e => exact save_out_error done ▸ ⟨written, shelves.skip, present⟩
  | ok stored =>
    obtain ⟨owned, filled⟩ := named_of_save done
    rw [save_eq owned filled] at done
    cases done
    let new : StoredDocument :=
      { id := s.mint (s.issued + 1), ownerId := owner, name, description, document := d, createdAt := s.now
        updatedAt := s.now }
    have fits : new.Sound := ⟨le_rfl, sound, shelves.clock _, shelves.clock _⟩
    obtain ⟨absent, added⟩ := shelves.add new owned fits trivial rfl
    refine ⟨_, added, ?_⟩
    rw [Shelf.of_append (absent owner)]
    refine List.forall_mem_cons.2 ⟨Title.isOn_put ⟨owner, new.id⟩ new, fun t mem => ?_⟩
    -- the id is new
    have apart : t.key ≠ ⟨owner, new.id⟩ := fun here => by
      obtain ⟨stored, found, -⟩ := present t mem
      rw [here] at found
      cases (absent owner).symm.trans found
    exact (present t mem).put apart

theorem save_keeps_stores (sound : d.Sound) :
    (save owner name d description).Keeps (Stores titles) fun _ => True := by
  refine .of_out fun s r after stores done => ⟨?_, fun _ _ => trivial⟩
  have kept := save_stores sound stores done
  cases r with
  | ok stored => exact kept.mono (List.subset_cons_self _ _)
  | error e => exact kept

theorem update_stores (key : DocumentKey) {changes : StoredChanges} {Named : String → Prop}
    (fits : changes.Fits Named Document.Sound) (stores : s.Stores titles) {r : Except Failure StoredDocument} :
    (update key.owner key.id changes).out s = (r, after) → match r with
      | .ok _ => after.Stores (titles.map (Title.rename key changes.name))
      | .error _ => after = s := by
  intro done
  obtain ⟨owner, id⟩ := key
  by_cases named : owner = ""
  · subst named
    cases done
    rfl
  · obtain ⟨written, shelves, present⟩ := stores
    obtain ⟨-, out⟩ | ⟨stored, found, ⟨-, out⟩ | ⟨e, -, -, out⟩⟩ := shelves.fetch_cases named id
    · cases (update_of_missing changes out).symm.trans done
      rfl
    · obtain ⟨mem, rfl, rfl⟩ := Shelf.of_eq_some found
      cases (update_eq changes out named).symm.trans done
      have sound := (shelves.sound stored mem).reread
      let new := stored.reread.change changes s.now
      have changed : new.Sound := sound.change fits (shelves.clock _)
      have there := Option.isSome_of_eq_some found
      refine ⟨_, shelves.replace new named changed trivial there, List.forall_mem_map.2 fun t mem => ?_⟩
      rw [Shelf.of_replace new there]
      exact (present t mem).rename ⟨stored.ownerId, stored.id⟩ found rfl
    · cases (update_of_error changes out).symm.trans done
      rfl

/-- Names are only given to flowcharts that are not among these. -/
theorem update_keeps_stores {Named : String → Prop} (quiet : ∀ name, Named name → titles = []) (owner id : String)
    {changes : StoredChanges} (fits : changes.Fits Named Document.Sound) :
    (update owner id changes).Keeps (Stores titles) fun _ => True := by
  refine .of_out fun s r after stores done => ⟨?_, fun _ _ => trivial⟩
  have kept := update_stores ⟨owner, id⟩ fits stores done
  have same : titles.map (Title.rename ⟨owner, id⟩ changes.name) = titles := by
    cases given : changes.name with
    | none => rw [Title.rename_none, List.map_id]
    | some name => rw [quiet name (fits.name name given), List.map_nil]
  cases r with
  | ok new => exact same ▸ kept
  | error e => exact kept ▸ stores

theorem delete_keeps_stores {key : DocumentKey} (spared : ∀ t ∈ titles, t.key ≠ key) :
    (delete key.owner key.id).Keeps (Stores titles) fun _ => True := by
  refine .of_out fun s r after stores done => ⟨?_, fun _ _ => trivial⟩
  by_cases named : key.owner = ""
  · unfold delete at done
    rw [named] at done
    cases done
    exact stores
  · obtain ⟨written, shelves, present⟩ := stores
    have out := (delete_eq (s := s) named key.id).symm.trans done
    split at out
    next =>
      cases out
      exact ⟨written, shelves, present⟩
    next =>
      cases out
      refine ⟨_, shelves.remove named key.id, fun t mem => ?_⟩
      rw [Shelf.of_filter]
      exact (present t mem).drop (spared t mem)

end Store

/-! ### Runs -/

namespace Service

variable {p : Planner} {titles : List Title} {s after : Service} {key : DocumentKey} {d : Document}
  {description : Option String}

/-- The store has the files of the flowcharts, and what the sessions hold is sound. -/
abbrev Shelved (titles : List Title) : Service → Prop := Stocked (Store.Stores titles) Document.Sound

theorem shelved_upheld {Named : String → Prop} (quiet : ∀ name, Named name → titles = []) :
    Upheld Named Document.Sound (Shelved titles) :=
  stocked_upheld (fun stores holds => stores.held holds) fun owner id _ fits =>
    Store.update_keeps_stores quiet owner id fits

/-- What was saved is in the store. -/
theorem stores_of_save {owner name : String} {stored : StoredDocument} (sound : d.Sound)
    (stores : s.store.Stores titles) (done : (save p owner name d description).out s = (.ok stored, after)) :
    after.store.Stores (⟨⟨owner, stored.id⟩, name⟩ :: titles) := by
  unfold save at done
  obtain ⟨_, _, failed⟩ | ⟨_, _, valid, rest⟩ := Act.out_bind_eq done
  · cases failed
  · cases requireValid_out valid
    obtain ⟨_, _, failed⟩ | ⟨_, _, written, tail⟩ := Act.out_bind_eq rest
    · cases failed
    · obtain ⟨store, saved, rfl⟩ := onStore_out written
      cases tail
      exact Store.save_stores sound stores saved

theorem stores_of_update {name : Option String} {new : Option Document} {base : Option Int}
    {r : Except Failure StoredDocument} (sound : ∀ d, new = some d → d.Sound) (stores : s.store.Stores titles)
    (done : (update p key name new description base).out s = (r, after)) : match r with
      | .ok _ => after.store.Stores (titles.map (Title.rename key name))
      | .error _ => after.store.Stores titles := by
  have kept {version : Option Int} (bound : ∀ v, version = some v → 0 ≤ v) {store : Store}
      {r : Except Failure StoredDocument} (updated : (Store.update key.owner key.id
        { name, document := new, description, version }).out s.store = (r, store)) := by
    have fits : StoredChanges.Fits (fun _ => True) Document.Sound { name, document := new, description, version } :=
      ⟨fun _ _ => trivial, sound, bound⟩
    exact Store.update_stores key fits stores updated
  cases update_out done with
  | refused e => exact stores
  | failed _ bound valid changed =>
    obtain ⟨store, updated, rfl⟩ := onStore_out changed
    exact (kept bound updated).symm ▸ stores
  | made _ bound valid changed events =>
    obtain ⟨store, updated, rfl⟩ := onStore_out changed
    cases new with
    | none => exact kept bound updated
    | some d => exact (close_store key _).symm ▸ kept bound updated

end Service

namespace Desk

variable {p : Planner} {there : List Title} {desk : Desk}

/-- The flowcharts that are there after a call: one that was saved is, and one that was deleted is not. -/
def retitle (p : Planner) (desk : Desk) (there : List Title) : Call → List Title
  | .save owner name d description =>
    match (Service.save p owner name d description).out desk.service with
    | (.ok stored, _) => ⟨⟨owner, stored.id⟩, name⟩ :: there
    | (.error _, _) => there
  | .update key name d description base =>
    match (Service.update p key name d description base).out desk.service with
    | (.ok _, _) => there.map (Title.rename key name)
    | (.error _, _) => there
  | .delete key => there.filter (·.key ≠ key)
  | _ => there

/-- The flowcharts that were saved in a run and not deleted since, besides those that were there before. They have
the names that they were given last by a call that was accepted. -/
def titles (p : Planner) : Desk → List Title → List Call → List Title
  | _, there, [] => there
  | desk, there, call :: calls => titles p (desk.step p call) (desk.retitle p there call) calls

theorem titles_cons (call : Call) (calls : List Call) :
    titles p desk there (call :: calls) = titles p (desk.step p call) (desk.retitle p there call) calls := rfl

theorem retitle_of_save {owner name : String} {d : Document} {description : Option String} {stored : StoredDocument}
    {after : Service} (saved : (Service.save p owner name d description).out desk.service = (.ok stored, after)) :
    desk.retitle p there (.save owner name d description) = ⟨⟨owner, stored.id⟩, name⟩ :: there := by
  rw [retitle, saved]

theorem retitle_of_update {key : DocumentKey} {name description : Option String} {new : Option Document}
    {base : Option Int} {stored : StoredDocument} {after : Service}
    (updated : (Service.update p key name new description base).out desk.service = (.ok stored, after)) :
    desk.retitle p there (.update key name new description base) = there.map (Title.rename key name) := by
  rw [retitle, updated]

theorem step_stores (engine : p.engine.Sound) (upholds : desk.Upholds Document.Sound (Service.Shelved there))
    {call : Call} (received : call.Received) :
    (desk.step p call).Upholds Document.Sound (Service.Shelved (desk.retitle p there call)) := by
  have makes {operations : List Operation} (each : ∀ operation ∈ operations, operation.Sound) :
      p.engine.Makes Document.Sound operations := fun _ _ sound done _ => engine sound each done
  have stores := upholds.service.store
  -- flowcharts that are not deleted or renamed go on having files
  have still {fewer : List Title} (subset : fewer ⊆ there)
      (spared : ∀ key, call = .delete key → ∀ t ∈ fewer, t.key ≠ key)
      (quiet : ∀ key name d description base, call = .update key (some name) d description base → fewer = []) :
      (desk.step p call).Upholds Document.Sound (Service.Shelved fewer) := by
    have before : desk.Upholds Document.Sound (Service.Shelved fewer) :=
      ⟨⟨stores.mono subset, upholds.service.sessions⟩, upholds.turns⟩
    have harmless : call.Harmless p (fun _ => fewer = []) Document.Sound (Service.Shelved fewer) desk.service :=
      received.harmless makes (fun distinct read _ => Document.sound_of_read distinct read) quiet
        (fun _ _ _ _ _ sound => Store.save_keeps_stores sound)
        (fun key same => Store.delete_keeps_stores (spared key same)) desk.service
    exact step_upholds (Service.shelved_upheld fun _ => id) makes before harmless
  cases call with
  | save owner name d description =>
    have kept := still (List.Subset.refl there) nofun fun _ _ _ _ _ same => nomatch same
    obtain ⟨payload, distinct, read⟩ := received
    rcases saved : (Service.save p owner name d description).out desk.service with ⟨e | stored, after⟩
    · simp only [retitle, saved]
      exact kept
    · rw [retitle_of_save saved]
      have same : (desk.step p (.save owner name d description)).service = after := congrArg Prod.snd saved
      have added := Service.stores_of_save (Document.sound_of_read distinct read) stores saved
      exact ⟨⟨same ▸ added, kept.service.sessions⟩, kept.turns⟩
  | update key name new description base =>
    have kept := still (List.nil_subset there) nofun fun _ _ _ _ _ _ => rfl
    have sound : ∀ d, new = some d → d.Sound := by
      rintro d rfl
      obtain ⟨payload, distinct, read⟩ := received
      exact Document.sound_of_read distinct read
    rcases updated : (Service.update p key name new description base).out desk.service with ⟨e | stored, after⟩
    all_goals
      have same : (desk.step p (.update key name new description base)).service = after := congrArg Prod.snd updated
      have stored := Service.stores_of_update sound stores updated
    · simp only [retitle, updated]
      exact ⟨⟨same ▸ stored, kept.service.sessions⟩, kept.turns⟩
    · rw [retitle_of_update updated]
      exact ⟨⟨same ▸ stored, kept.service.sessions⟩, kept.turns⟩
  | delete key =>
    refine still List.filter_sublist.subset (fun other same t mem => ?_) fun _ _ _ _ _ same => nomatch same
    cases same
    exact of_decide_eq_true (List.mem_filter.1 mem).2
  | commit | openSession | beginTurn | receive | conclude | settle | restart =>
    exact still (List.Subset.refl there) nofun fun _ _ _ _ _ same => nomatch same

theorem play_stores (engine : p.engine.Sound)
    (upholds : desk.Upholds Document.Sound (Service.Shelved there)) {calls : List Call}
    (received : ∀ call ∈ calls, call.Received) :
    (desk.play p calls).Upholds Document.Sound (Service.Shelved (titles p desk there calls)) := by
  induction calls generalizing desk there with
  | nil => exact upholds
  | cons call calls ih =>
    have first := step_stores engine upholds (received call List.mem_cons_self)
    exact ih first fun other mem => received other (List.mem_cons_of_mem _ mem)

end Desk

/-! ### What is read -/

namespace Service

variable {titles : List Title} {key : DocumentKey} {s : Service}

/-- Fetching the flowchart is refused, as its file cannot be read. -/
def IsLost (key : DocumentKey) (s : Service) : Prop := ∃ e, (fetch key).out s = (.error e, s) ∧ e.IsUnreadable

/-- The file of a flowchart holds a record. The flowchart is fetched if the record is readable. It is listed with all
others of its owner if none of them is lost; one that is keeps all of them from being listed. -/
structure Presents (key : DocumentKey) (s : Service) (stored : StoredDocument) : Prop where
  file : s.store.text? key.owner key.id = some stored.render
  filed : stored.FiledUnder key
  fetched : stored.IsReadable → (fetch key).out s = (.ok stored.reread, s)
  lost : ¬stored.IsReadable → s.IsLost key
  listed : (∀ id, ¬s.IsLost ⟨key.owner, id⟩) → ∃ found, (list key.owner).out s = (.ok found, s) ∧
    stored.reread ∈ found
  unlisted : (∃ id, s.IsLost ⟨key.owner, id⟩) → ∃ e, (list key.owner).out s = (.error e, s) ∧ e.IsUnreadable

section

variable {Fit : StoredDocument → Prop} {written : List StoredDocument} {owner : String}
  (shelves : s.store.Shelves Fit written) (named : owner ≠ "") (id : String)

include shelves named

theorem fetch_cases :
    (Shelf.of written owner id = none ∧
        (fetch ⟨owner, id⟩).out s = (.error (Store.notFound "Flowchart" owner id), s)) ∨
      ∃ stored, Shelf.of written owner id = some stored ∧
        ((stored.IsReadable ∧ (fetch ⟨owner, id⟩).out s = (.ok stored.reread, s)) ∨
          ¬stored.IsReadable ∧ s.IsLost ⟨owner, id⟩) := by
  unfold IsLost fetch
  obtain ⟨missing, out⟩ | ⟨stored, present, ⟨readable, out⟩ | ⟨e, fails, unreadable, out⟩⟩ :=
    shelves.fetch_cases named id
  · exact .inl ⟨missing, by rw [Act.out_bind_of_ok (onStore_eq out)]; rfl⟩
  · exact .inr ⟨stored, present, .inl ⟨readable, by rw [Act.out_bind_of_ok (onStore_eq out)]; rfl⟩⟩
  · exact .inr ⟨stored, present, .inr ⟨fails, e, by rw [Act.out_bind, onStore_eq out], unreadable⟩⟩

theorem isLost_iff :
    s.IsLost ⟨owner, id⟩ ↔ ∃ stored, Shelf.of written owner id = some stored ∧ ¬stored.IsReadable := by
  obtain ⟨missing, out⟩ | ⟨stored, present, ⟨readable, out⟩ | ⟨fails, lost⟩⟩ := fetch_cases shelves named id
  · refine iff_of_false ?_ ?_
    · rintro ⟨e, refused, message, rfl⟩
      cases out.symm.trans refused
    · rintro ⟨stored, present, -⟩
      cases missing.symm.trans present
  · refine iff_of_false ?_ ?_
    · rintro ⟨e, refused, -⟩
      cases out.symm.trans refused
    · rintro ⟨other, same, fails⟩
      cases present.symm.trans same
      exact fails readable
  · exact iff_of_true lost ⟨stored, present, fails⟩

end


theorem presents_of_stores (stores : s.store.Stores titles) {t : Title} (mem : t ∈ titles) :
    ∃ stored, s.Presents t.key stored ∧ stored.name = t.name := by
  obtain ⟨written, shelves, present⟩ := stores
  obtain ⟨stored, found, same⟩ := present t mem
  obtain ⟨inWritten, owner, id⟩ := Shelf.of_eq_some found
  have named : t.key.owner ≠ "" := owner ▸ shelves.owned stored inWritten
  refine ⟨stored, { file := ?_, filed := ?_, fetched := fun readable => ?_, lost := fun fails => ?_
                    listed := fun safe => ?_, unlisted := fun lost => ?_ }, same⟩
  · rw [shelves.text?_eq named, found, Option.map_some]
  · exact ⟨(shelves.sound stored inWritten).document, owner, id⟩
  · obtain ⟨missing, -⟩ | ⟨other, same, ⟨-, out⟩ | ⟨fails, -⟩⟩ := fetch_cases shelves named t.key.id
    · cases missing.symm.trans found
    · cases same.symm.trans found
      exact out
    · cases same.symm.trans found
      exact absurd readable fails
  · exact (isLost_iff shelves named t.key.id).2 ⟨stored, found, fails⟩
  · obtain ⟨sorted, out, perm, -⟩ | ⟨other, mem, e, -, -, fails⟩ := shelves.list_cases named
    · have mine : stored ∈ Shelf.owned written t.key.owner := Shelf.mem_owned.2 ⟨inWritten, owner⟩
      exact ⟨sorted, onStore_eq out, perm.mem_iff.2 (List.mem_map_of_mem mine)⟩
    · obtain ⟨otherMem, sameOwner⟩ := Shelf.mem_owned.1 mem
      have lost : s.IsLost ⟨t.key.owner, other.id⟩ :=
        (isLost_iff shelves named _).2 ⟨other, shelves.of_eq_some_iff.2 ⟨otherMem, sameOwner, rfl⟩, fails⟩
      exact absurd lost (safe other.id)
  · obtain ⟨id, lost⟩ := lost
    obtain ⟨other, there, fails⟩ := (isLost_iff shelves named id).1 lost
    obtain ⟨otherMem, sameOwner, -⟩ := Shelf.of_eq_some there
    obtain ⟨sorted, -, -, readable⟩ | ⟨_, -, e, out, unreadable, -⟩ := shelves.list_cases named
    · exact absurd (readable other (Shelf.mem_owned.2 ⟨otherMem, sameOwner⟩)) fails
    · exact ⟨e, onStore_eq out, unreadable⟩

end Service

/-- A flowchart that was saved and not deleted is stored under the name that it was given last, and is fetched and
listed as its record allows: it has to have a name, and not to be nested too deep. -/
theorem play_presents {p : Planner} (engine : p.engine = .standard p.catalog) (templates : p.catalog.Sound)
    {store : Store} (empty : store.files = []) (fresh : Function.Injective store.mint)
    (clock : ∀ n, (store.clock n).IsUniversal) {calls : List Desk.Call} (received : ∀ call ∈ calls, call.Received)
    {key : DocumentKey} {name : String} (there : ⟨key, name⟩ ∈ Desk.titles p { service := { store } } [] calls) :
    ∃ stored : StoredDocument, (Desk.play p { service := { store } } calls).service.Presents key stored ∧
      stored.name = name := by
  have sound : p.engine.Sound := engine ▸ Engine.standard_sound templates
  have started : Service.Shelved [] { store } :=
    Service.stocked_start ⟨[], Store.shelves_nil empty fresh clock, List.forall_mem_nil _⟩
  have stores := Desk.play_stores sound (Desk.upholds_start started) received
  exact Service.presents_of_stores stores.service.store there

/-- An empty flowchart is saved, and its name is taken from it. -/
def sampleUnnaming : List Desk.Call :=
  [.save "owner" "Plan" {} none, .update ⟨"owner", "1"⟩ (some "") none none none]

/-- The flowchart is lost, and its owner cannot list any. -/
theorem play_presents_nameless :
    let store := { sampleStore with mint := fun n => String.ofList (List.replicate n '1') }
    let desk := Desk.play samplePlanner { service := { store } } sampleUnnaming
    desk.service.IsLost ⟨"owner", "1"⟩ ∧
      ∃ e, (Service.list "owner").out desk.service = (.error e, desk.service) ∧ e.IsUnreadable := by
  intro store desk
  have fresh : Function.Injective store.mint := fun m n same => by
    simpa [store] using congrArg String.length same
  have clock : ∀ n, (store.clock n).IsUniversal := fun _ =>
    ⟨rfl, by simp [store, sampleStore], by simp [store, sampleStore]⟩
  have received : ∀ call ∈ sampleUnnaming, call.Received := by
    simp only [sampleUnnaming, List.forall_mem_cons]
    exact ⟨⟨_, Payload.distinctKeys_empty, rfl⟩, trivial, fun _ mem => absurd mem List.not_mem_nil⟩
  obtain ⟨service, saved⟩ : ∃ service,
      (Service.save samplePlanner "owner" "Plan" {} none).out { store } = (.ok .sample, service) := ⟨_, rfl⟩
  -- the file can be read as long as there is a name
  obtain ⟨text, -⟩ := Service.save_out StoredDocument.sound_sample saved
  have file : service.store.files.read? (Store.place "owner" "1") = some StoredDocument.sample.render :=
    (Store.text?_of_path (Store.path_eq (by decide) _) service.store).symm.trans text
  have updated := Store.update_eq { name := some "" } (Store.fetch_sample file) (by decide)
  obtain ⟨stored, later, renamed⟩ : ∃ stored later,
      (Service.update samplePlanner ⟨"owner", "1"⟩ (some "") none none none).out service = (.ok stored, later) :=
    ⟨_, _, (Act.out_bind_of_ok (Service.onStore_eq updated)).trans rfl⟩
  have there : ⟨⟨"owner", "1"⟩, ""⟩ ∈ Desk.titles samplePlanner { service := { store } } [] sampleUnnaming := by
    have first : Desk.step samplePlanner { service := { store } } (.save "owner" "Plan" {} none) = { service } :=
      Desk.after_of_out saved
    rw [sampleUnnaming, Desk.titles_cons, Desk.titles_cons, Desk.retitle_of_save saved, first,
      Desk.retitle_of_update renamed, Desk.titles]
    exact List.mem_map.2 ⟨_, List.mem_cons_self, if_pos rfl⟩
  obtain ⟨stored, presents, nameless⟩ :=
    play_presents (p := samplePlanner) rfl builtin_sound rfl fresh clock received there
  have lost := presents.lost fun readable => readable.1 nameless
  exact ⟨lost, presents.unlisted ⟨_, lost⟩⟩

end Flowchart
