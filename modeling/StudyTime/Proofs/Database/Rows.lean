/-
**The tables are two finite maps.**

Rows stand for a map if they have its keys, each of them once, with its values.  An edit that is carried
out on rows, statement by statement, keeps them standing for the map that the same edit makes; where one
table is not there both fail in the same way, and a transaction that has begun is rolled back.  In the
maps the latest edit that concerns a key decides what is found under it.  So the same holds of the rows,
which are read by taking the first one with the key.

Main definitions:

* `Rows.Stands`, `RowStore.StandsFor` — rows that stand for a map, and for both tables;
* `Edit.concernsEntry`, `Edit.text?`, `Edit.concernsProfile`, `Edit.instant?` — the keys that an edit
  concerns, and what it leaves under them;
* `Tables.Complete` — databases with all tables of their version;
* `FiniteMaps` — what is said of rows after a number of edits.

Main results:

* `Edit.matches_perform` — **an edit of rows comes to what it does to the tables**;
* `RowStore.matches_run` — a run of edits has the same outcomes on rows, and comes to the same;
* `DatabaseRun.run_edits` — the latest edits decide what is in the tables;
* `tables_are_finite_maps` — **every key is looked up with the outcome of the latest edit that concerns
  it**, has one row at most, and keeps its row under all other edits.
-/

import Mathlib.Data.List.Nodup
import StudyTime.Database.Rows
import StudyTime.Proofs.Database.Migrations

set_option relaxedAutoImplicit false
set_option autoImplicit false

namespace StudyTime

/-! ### Rows that stand for a map -/

namespace Rows

section Lists

variable {κ ν : Type}

theorem mem_delete {picks : κ → Bool} {k : κ} {v : ν} {rows : List (κ × ν)} :
    (k, v) ∈ delete picks rows ↔ (k, v) ∈ rows ∧ picks k = false := by
  simp [delete]

variable [DecidableEq κ]

/-- The rows with a key. -/
def under (k : κ) (rows : List (κ × ν)) : List (κ × ν) := rows.filter fun row => row.1 = k

theorem mem_upsert {k k' : κ} {v v' : ν} {rows : List (κ × ν)} :
    (k', v') ∈ upsert k v rows ↔ if k' = k then v' = v else (k', v') ∈ rows := by
  unfold upsert
  split
  next hany =>
    obtain ⟨row, hrow, hk⟩ := List.any_eq_true.1 hany
    rw [List.mem_map]
    by_cases hkk : k' = k
    · rw [if_pos hkk]
      constructor
      · rintro ⟨row', -, h⟩
        split at h
        · exact (congrArg Prod.snd h).symm
        next hne => exact absurd ((congrArg Prod.fst h).trans hkk) hne
      · intro hv
        exact ⟨row, hrow, by rw [if_pos (of_decide_eq_true hk), hkk, hv]⟩
    · rw [if_neg hkk]
      constructor
      · rintro ⟨row', hrow', h⟩
        split at h
        · exact absurd (congrArg Prod.fst h).symm hkk
        · exact h ▸ hrow'
      · intro h
        exact ⟨(k', v'), h, if_neg hkk⟩
  next hany =>
    have hnone : ∀ v, (k, v) ∉ rows := fun v h => hany (List.any_eq_true.2 ⟨_, h, by simp⟩)
    rw [List.mem_append, List.mem_singleton, Prod.mk.injEq]
    by_cases hkk : k' = k
    · subst hkk
      simp [hnone]
    · simp [hkk]

/-- Keys that are each there once stay so. -/
theorem nodup_upsert {k : κ} {v : ν} {rows : List (κ × ν)} (h : (rows.map Prod.fst).Nodup) :
    ((upsert k v rows).map Prod.fst).Nodup := by
  unfold upsert
  split
  · have hkeys : (rows.map fun row => if row.1 = k then (k, v) else row).map Prod.fst =
        rows.map Prod.fst := by
      rw [List.map_map]
      refine List.map_congr_left fun row _ => ?_
      by_cases hk : row.1 = k
      · simp [hk]
      · simp [hk]
    rwa [hkeys]
  next hany =>
    have hk : k ∉ rows.map Prod.fst := by
      intro hmem
      obtain ⟨row, hrow, hk⟩ := List.mem_map.1 hmem
      exact hany (List.any_eq_true.2 ⟨row, hrow, by simpa using hk⟩)
    rw [List.map_append, List.map_singleton, List.nodup_append]
    refine ⟨h, List.nodup_singleton k, fun k' hk' k'' hk'' heq => hk ?_⟩
    rwa [heq, List.mem_singleton.1 hk''] at hk'

end Lists

variable {κ ν : Type} [KeyOrder κ]

/-- The rows have the keys of the map, each of them once, with their values. -/
structure Stands (rows : List (κ × ν)) (m : SortedMap κ ν) : Prop where
  /-- No two rows have the same key. -/
  nodup : (rows.map Prod.fst).Nodup
  mem_iff : ∀ k v, (k, v) ∈ rows ↔ m.get? k = some v

theorem Stands.nil : Stands ([] : List (κ × ν)) ∅ :=
  ⟨List.nodup_nil, fun k v => by simp⟩

/-- Rows that are not picked still stand for the keys that are not. -/
theorem Stands.delete {rows : List (κ × ν)} {m m' : SortedMap κ ν} (h : Stands rows m)
    {picks : κ → Bool} (hm' : ∀ k, m'.get? k = if picks k then none else m.get? k) :
    Stands (Rows.delete picks rows) m' := by
  refine ⟨h.nodup.sublist (List.filter_sublist.map Prod.fst), fun k v => ?_⟩
  rw [mem_delete, hm' k, h.mem_iff k v]
  cases picks k <;> simp

variable [DecidableEq κ]

namespace Stands

variable {rows : List (κ × ν)} {m : SortedMap κ ν}

theorem upsert (h : Stands rows m) (k : κ) (v : ν) : Stands (Rows.upsert k v rows) (m.insert k v) := by
  refine ⟨nodup_upsert h.nodup, fun k' v' => ?_⟩
  rw [mem_upsert, m.get?_insert]
  by_cases hk : k' = k
  · rw [if_pos hk, if_pos hk, Option.some_inj]
    exact eq_comm
  · rw [if_neg hk, if_neg hk]
    exact h.mem_iff k' v'

/-- The first row with a key is the one of the map. -/
theorem first_eq (h : Stands rows m) (k : κ) : first rows k = m.get? k := by
  unfold first
  cases hfind : rows.find? fun row => row.1 = k with
  | none =>
      cases hk : m.get? k with
      | none => rfl
      | some v =>
          have hne := List.find?_eq_none.1 hfind (k, v) ((h.mem_iff k v).2 hk)
          simp at hne
  | some row =>
      have hk : row.1 = k := by simpa using List.find?_some hfind
      have hrow : m.get? row.1 = some row.2 := (h.mem_iff _ _).1 (List.mem_of_find?_eq_some hfind)
      rw [← hk, hrow]
      rfl

/-- A key has one row if the map has it, and else none. -/
theorem under_eq (h : Stands rows m) (k : κ) :
    under k rows = ((m.get? k).map fun v => (k, v)).toList := by
  -- a list is known by its members if it has none of them twice and they are one at most
  have hnodup : (under k rows).Nodup := (List.Nodup.of_map _ h.nodup).filter _
  have hmem : ∀ row, row ∈ under k rows ↔ (m.get? k).map (fun v => (k, v)) = some row := by
    rintro ⟨k', v⟩
    rw [under, List.mem_filter, h.mem_iff, decide_eq_true_eq, Option.map_eq_some_iff]
    constructor
    · rintro ⟨hv, rfl⟩
      exact ⟨v, hv, rfl⟩
    · rintro ⟨v', hv, hrow⟩
      cases hrow
      exact ⟨hv, rfl⟩
  cases hk : (m.get? k).map fun v => (k, v) with
  | none =>
      refine List.eq_nil_iff_forall_not_mem.2 fun row hrow => ?_
      rw [hmem, hk] at hrow
      cases hrow
  | some row =>
      refine List.perm_singleton.1 ((List.perm_ext_iff_of_nodup hnodup (List.nodup_singleton row)).2 ?_)
      intro row'
      rw [hmem, hk, Option.some_inj, List.mem_singleton]
      exact eq_comm

end Stands

end Rows

/-! ### Edits of rows and of maps -/

/-- Each table is there in both, as rows that stand for it, or in neither. -/
structure RowStore.StandsFor (s : RowStore) (t : Tables) : Prop where
  entries : Option.Rel Rows.Stands s.entries t.entries
  profiles : Option.Rel Rows.Stands s.profiles t.profiles

namespace RowStore.StandsFor

variable {s : RowStore} {t : Tables}

/-- The rows are read like the tables. -/
theorem entry_eq (h : s.StandsFor t) (key : DocumentKey) : s.entry key = t.entry key := by
  obtain ⟨entries, profiles⟩ := s
  obtain ⟨version, es, indexed, ps⟩ := t
  unfold RowStore.entry Tables.entry
  cases h.entries with
  | none => rfl
  | @some rows m hrows =>
      cases hcell : m.get? key with
      | none => simp only [hrows.first_eq key, hcell]
      | some cell => cases cell <;> simp only [hrows.first_eq key, hcell]

theorem lastShown_eq (h : s.StandsFor t) (profile : String) :
    s.lastShown profile = t.lastShown profile := by
  obtain ⟨entries, profiles⟩ := s
  obtain ⟨version, es, indexed, ps⟩ := t
  unfold RowStore.lastShown Tables.lastShown
  cases h.profiles with
  | none => rfl
  | @some rows m hrows =>
      cases hcell : m.get? profile with
      | none => simp only [hrows.first_eq profile, hcell]
      | some cell => cases cell <;> simp only [hrows.first_eq profile, hcell]

end RowStore.StandsFor

namespace Edit

/-- The edit of rows comes to rows that stand for the expected tables, or if a failure was to be expected
then to this failure, and then the rows are as they were. -/
inductive Matches (s : RowStore) (expected : Except Failure Tables) :
    Except Failure Unit × Connection RowStore → Prop
  | done (u : Tables) (s' : RowStore) (h : expected = .ok u) (hs' : s'.StandsFor u) :
      Matches s expected (.ok (), .idle s')
  | failed (f : Failure) (h : expected = .error f) : Matches s expected (.error f, .idle s)

/-- **An edit of rows comes to what it does to the tables**. -/
theorem matches_perform {s : RowStore} {t : Tables} (h : s.StandsFor t) (e : Edit) :
    Matches s (e.change t) (e.perform (.idle s)) := by
  obtain ⟨entries, profiles⟩ := s
  obtain ⟨version, es, indexed, ps⟩ := t
  obtain ⟨hentries, hprofiles⟩ := h
  cases e with
  | put key text =>
      cases hentries with
      | none => exact .failed _ rfl
      | some hrows => exact .done _ _ rfl ⟨.some (hrows.upsert key (.text text)), hprofiles⟩
  | delete key =>
      cases hentries with
      | none => exact .failed _ rfl
      | some hrows =>
          refine .done _ _ rfl ⟨.some (hrows.delete fun key' => ?_), hprofiles⟩
          rw [SortedMap.get?_erase]
          simp only [decide_eq_true_eq]
  | setLastShown profile n =>
      cases hprofiles with
      | none => exact .failed _ rfl
      | some hrows => exact .done _ _ rfl ⟨hentries, .some (hrows.upsert profile (.instant n))⟩
  | deleteProfile profile =>
      cases hentries with
      | none => exact .failed _ rfl
      | some hrows =>
          cases hprofiles with
          -- the documents are deleted by then, and the transaction is rolled back
          | none => exact .failed _ rfl
          | some hrows' =>
              refine .done _ _ rfl ⟨.some (hrows.delete fun key => ?_), .some (hrows'.delete fun q => ?_)⟩
              · rw [SortedMap.get?_filterKeys]
                by_cases hkey : key.profile = profile <;> simp [hkey]
              · rw [SortedMap.get?_erase]
                simp only [decide_eq_true_eq]

/-- A step with the edit changes the tables. -/
theorem openStep_step (inFile : Bool) (db : Database) (e : Edit) :
    DatabaseRun.openStep inFile db e.step = DatabaseRun.change db e.change := by
  cases e <;> rfl

end Edit

namespace DatabaseRun

/-- An open database with a worker. -/
def working (inFile : Bool) (t : Tables) : DatabaseRun := ⟨inFile, .opened ⟨t, true⟩⟩

/-- The outcome of an edit is seen in the answer. -/
theorem answer_done_injective : Function.Injective (answer fun _ : Unit => DatabaseAnswer.done) := by
  intro r r' h
  cases r <;> cases r' <;> cases h <;> rfl

variable {inFile : Bool} {t u : Tables} {e : Edit}

theorem step_of_change_ok (h : e.change t = .ok u) :
    (working inFile t).step e.step = (.done, working inFile u) := by
  simp only [working, step, e.openStep_step, change, Database.update, h, if_true]
  rfl

theorem step_of_change_error {f : Failure} (h : e.change t = .error f) :
    (working inFile t).step e.step = (.failed f, working inFile t) := by
  simp only [working, step, e.openStep_step, change, Database.update, h, if_true]
  rfl

end DatabaseRun

/-- Edits of rows come to rows that stand for the tables, and the answers are the same. -/
theorem RowStore.matches_run (inFile : Bool) (edits : List Edit) :
    ∀ {s : RowStore} {t : Tables}, s.StandsFor t →
      ∃ outcomes s' u, RowStore.run (.idle s) edits = (outcomes, .idle s') ∧
        (DatabaseRun.working inFile t).run (edits.map Edit.step) =
          (outcomes.map (DatabaseRun.answer fun _ => .done), .working inFile u) ∧
        s'.StandsFor u := by
  induction edits with
  | nil => exact fun {s t} h => ⟨[], s, t, rfl, rfl, h⟩
  | cons e edits ih =>
      intro s t h
      have hmatches : Edit.Matches s (e.change t) (e.perform (.idle s)) := e.matches_perform h
      simp only [RowStore.run, List.map_cons, DatabaseRun.run]
      generalize e.perform (.idle s) = r at hmatches ⊢
      cases hmatches with
      | done u s' hchange hs' =>
          obtain ⟨outcomes, s'', u', hrun, hdatabase, hstands⟩ := ih hs'
          rw [DatabaseRun.step_of_change_ok hchange]
          simp only [hrun, hdatabase]
          exact ⟨.ok () :: outcomes, s'', u', rfl, rfl, hstands⟩
      | failed f hchange =>
          obtain ⟨outcomes, s'', u', hrun, hdatabase, hstands⟩ := ih h
          rw [DatabaseRun.step_of_change_error hchange]
          simp only [hrun, hdatabase]
          exact ⟨.error f :: outcomes, s'', u', rfl, rfl, hstands⟩

/-! ### The latest edit of a key -/

namespace Edit

/-- The edit concerns the payload under the key. -/
def concernsEntry (key : DocumentKey) : Edit → Bool
  | .put key' _ => key = key'
  | .delete key' => key = key'
  | .setLastShown _ _ => false
  | .deleteProfile profile => key.profile = profile

/-- The payload that the edit leaves under the keys that it concerns. -/
def text? : Edit → Option String
  | .put _ text => some text
  | _ => none

/-- The edit concerns the instant of the profile. -/
def concernsProfile (profile : String) : Edit → Bool
  | .put _ _ => false
  | .delete _ => false
  | .setLastShown profile' _ => profile = profile'
  | .deleteProfile profile' => profile = profile'

/-- The instant that the edit leaves for the profiles that it concerns. -/
def instant? : Edit → Option Int64
  | .setLastShown _ n => some n
  | _ => none

/-- What is in a table after edits: what the latest one about a key left there. -/
def After {κ ν β : Type} [KeyOrder κ] (concerns : κ → Edit → Bool) (leaves : Edit → Option β)
    (cell : β → ν) (edits : List Edit) (m m' : SortedMap κ ν) : Prop :=
  ∀ k, m'.get? k =
    ((edits.findRev? (concerns k)).map fun e => (leaves e).map cell).getD (m.get? k)

section After

variable {κ ν β : Type} [KeyOrder κ] {concerns : κ → Edit → Bool} {leaves : Edit → Option β}
  {cell : β → ν}

theorem After.nil (m : SortedMap κ ν) : After concerns leaves cell [] m m := fun _ => rfl

/-- One edit before the others: where these do not concern a key, it decides. -/
theorem After.cons {e : Edit} {edits : List Edit} {m m' m'' : SortedMap κ ν}
    (he : ∀ k, m'.get? k = if concerns k e then (leaves e).map cell else m.get? k)
    (h : After concerns leaves cell edits m' m'') : After concerns leaves cell (e :: edits) m m'' := by
  intro k
  rw [h k, he k, List.findRev?]
  cases hlast : edits.findRev? (concerns k) with
  | some e' => rfl
  | none => cases hconcerns : concerns k e <;> rfl

end After

/-- An edit of a database with both tables succeeds, and changes what is under the keys it concerns. -/
theorem change_eq (e : Edit) (version : Int) (es : SortedMap DocumentKey PayloadCell) (indexed : Bool)
    (ps : SortedMap String ShownCell) :
    ∃ es' ps', e.change ⟨version, some es, indexed, some ps⟩ =
        .ok ⟨version, some es', indexed, some ps'⟩ ∧
      (∀ key, es'.get? key = if e.concernsEntry key then e.text?.map .text else es.get? key) ∧
      (∀ profile, ps'.get? profile =
        if e.concernsProfile profile then e.instant?.map .instant else ps.get? profile) := by
  cases e with
  | put key text =>
      refine ⟨_, _, rfl, fun key' => ?_, fun _ => rfl⟩
      simp [concernsEntry, text?, SortedMap.get?_insert]
  | delete key =>
      refine ⟨_, _, rfl, fun key' => ?_, fun _ => rfl⟩
      simp [concernsEntry, text?, SortedMap.get?_erase]
  | setLastShown profile n =>
      refine ⟨_, _, rfl, fun _ => rfl, fun profile' => ?_⟩
      simp [concernsProfile, instant?, SortedMap.get?_insert]
  | deleteProfile profile =>
      refine ⟨_, _, rfl, fun key => ?_, fun profile' => ?_⟩
      · by_cases hkey : key.profile = profile <;>
          simp [concernsEntry, text?, SortedMap.get?_filterKeys, hkey]
      · simp [concernsProfile, instant?, SortedMap.get?_erase]

end Edit

/-- All edits of a database with both tables succeed, and the latest ones decide what is in them. -/
theorem DatabaseRun.run_edits (inFile : Bool) (version : Int) (indexed : Bool) (edits : List Edit) :
    ∀ es ps, ∃ es' ps',
      (working inFile ⟨version, some es, indexed, some ps⟩).run (edits.map Edit.step) =
        (edits.map fun _ => .done, working inFile ⟨version, some es', indexed, some ps'⟩) ∧
      Edit.After Edit.concernsEntry Edit.text? .text edits es es' ∧
      Edit.After Edit.concernsProfile Edit.instant? .instant edits ps ps' := by
  induction edits with
  | nil => exact fun es ps => ⟨es, ps, rfl, .nil es, .nil ps⟩
  | cons e edits ih =>
      intro es ps
      obtain ⟨es', ps', hchange, hentries, hprofiles⟩ := e.change_eq version es indexed ps
      obtain ⟨es'', ps'', hrun, hentries', hprofiles'⟩ := ih es' ps'
      refine ⟨es'', ps'', ?_, .cons hentries hentries', .cons hprofiles hprofiles'⟩
      simp only [List.map_cons, run, step_of_change_ok hchange, hrun]

/-! ### Both tables -/

/-- The database has all tables of its version. -/
def Tables.Complete (t : Tables) : Prop :=
  ∀ version table, version ≤ t.version → Introduces version table → t.Has table

/-- A file with all tables of its version is opened with all tables, and with a worker. -/
theorem Database.has_of_open {file : Tables} {db : Database} (hopen : Database.open? file = .ok db)
    (hfile : file.Complete) : db.working = true ∧ ∀ table, db.tables.Has table := by
  unfold Database.open? at hopen
  cases hmigrated : file.migrated with
  | error f =>
      rw [hmigrated] at hopen
      cases hopen
  | ok t =>
      rw [hmigrated] at hopen
      cases hopen
      have hup : file.BroughtUp t := Tables.broughtUp_of_migrated hmigrated
      refine ⟨rfl, fun table => ?_⟩
      have hsome : ∃ version, Introduces version table := by
        cases table with
        | entries => exact ⟨1, introduces_iff.2 (.inl ⟨rfl, rfl⟩)⟩
        | profiles => exact ⟨2, introduces_iff.2 (.inr ⟨rfl, rfl⟩)⟩
      obtain ⟨version, hintroduces⟩ := hsome
      rcases Int.lt_or_le file.version version with hlater | hearlier
      · exact hup.has_of_introduces version table hlater hintroduces
      · exact hup.has_of_has table (hfile version table hearlier hintroduces)

namespace DatabaseRun

variable {inFile : Bool} {version : Int} {indexed : Bool} {es es' : SortedMap DocumentKey PayloadCell}
  {ps ps' : SortedMap String ShownCell}

theorem step_get (t : Tables) (key : DocumentKey) :
    ((working inFile t).step (.get key)).1 = answer .text (t.entry key) := rfl

theorem step_lastShown (t : Tables) (profile : String) :
    ((working inFile t).step (.lastShown profile)).1 = answer .shown (t.lastShown profile) := rfl

theorem step_get_of_eq {key : DocumentKey} (h : es'.get? key = es.get? key) :
    ((working inFile ⟨version, some es', indexed, some ps'⟩).step (.get key)).1 =
      ((working inFile ⟨version, some es, indexed, some ps⟩).step (.get key)).1 := by
  rw [step_get, step_get]
  simp only [Tables.entry, h]

theorem step_get_of_text {key : DocumentKey} {text : Option String}
    (h : es.get? key = text.map .text) :
    ((working inFile ⟨version, some es, indexed, some ps⟩).step (.get key)).1 = .text text := by
  rw [step_get]
  simp only [Tables.entry, h]
  cases text <;> rfl

theorem step_lastShown_of_eq {profile : String} (h : ps'.get? profile = ps.get? profile) :
    ((working inFile ⟨version, some es', indexed, some ps'⟩).step (.lastShown profile)).1 =
      ((working inFile ⟨version, some es, indexed, some ps⟩).step (.lastShown profile)).1 := by
  rw [step_lastShown, step_lastShown]
  simp only [Tables.lastShown, h]

theorem step_lastShown_of_instant {profile : String} {n : Option Int64}
    (h : ps.get? profile = n.map .instant) :
    ((working inFile ⟨version, some es, indexed, some ps⟩).step (.lastShown profile)).1 =
      .shown n := by
  rw [step_lastShown]
  simp only [Tables.lastShown, h]
  cases n <;> rfl

end DatabaseRun

/-- The rows of the table of documents, none if it is not there. -/
def RowStore.entryRows (s : RowStore) : List (DocumentKey × PayloadCell) := s.entries.getD []

/-- The rows of the table of profiles, none if it is not there. -/
def RowStore.profileRows (s : RowStore) : List (String × ShownCell) := s.profiles.getD []

/-- What is said of one table after edits, of the answers for its keys and of its rows. -/
structure FiniteMap {κ ν β : Type} [DecidableEq κ] (concerns : κ → Edit → Bool)
    (leaves : Edit → Option β) (answer : Option β → DatabaseAnswer) (edits : List Edit)
    (ask ask' : κ → DatabaseAnswer) (rows rows' : List (κ × ν)) : Prop where
  /-- The latest edit that concerns a key decides what is found under it. -/
  answer_of_latest : ∀ k e, edits.findRev? (concerns k) = some e → ask' k = answer (leaves e)
  /-- Without an edit that concerns it a key is looked up as before. -/
  answer_of_none : ∀ k, edits.findRev? (concerns k) = none → ask' k = ask k
  /-- Then nothing is found if the key had no row. -/
  answer_of_absent : ∀ k, edits.findRev? (concerns k) = none → k ∉ rows.map Prod.fst →
    ask' k = answer none
  /-- No key has more than one row. -/
  nodup : (rows'.map Prod.fst).Nodup
  /-- The row of a key that no edit concerns is as it was. -/
  under_eq : ∀ k, edits.findRev? (concerns k) = none → Rows.under k rows' = Rows.under k rows

/-- Rows that stand for what is in the table after edits. -/
theorem FiniteMap.of_after {κ ν β : Type} [KeyOrder κ] [DecidableEq κ] {concerns : κ → Edit → Bool}
    {leaves : Edit → Option β} {cell : β → ν} {answer : Option β → DatabaseAnswer}
    {edits : List Edit} {ask ask' : κ → DatabaseAnswer} {rows rows' : List (κ × ν)}
    {m m' : SortedMap κ ν} (hrows : Rows.Stands rows m) (hrows' : Rows.Stands rows' m')
    (hafter : Edit.After concerns leaves cell edits m m')
    (hsame : ∀ k, m'.get? k = m.get? k → ask' k = ask k)
    (hanswer : ∀ k b, m'.get? k = b.map cell → ask' k = answer b) :
    FiniteMap concerns leaves answer edits ask ask' rows rows' := by
  have hkept : ∀ k, edits.findRev? (concerns k) = none → m'.get? k = m.get? k := by
    intro k hnone
    rw [hafter k, hnone]
    rfl
  refine ⟨fun k e he => hanswer k (leaves e) ?_, fun k hnone => hsame k (hkept k hnone),
    fun k hnone habsent => hanswer k none ?_, hrows'.nodup, fun k hnone => ?_⟩
  · rw [hafter k, he]
    rfl
  · rw [hkept k hnone]
    cases hk : m.get? k with
    | none => rfl
    | some v => exact absurd (List.mem_map.2 ⟨(k, v), (hrows.mem_iff k v).2 hk, rfl⟩) habsent
  · rw [hrows'.under_eq k, hrows.under_eq k, hkept k hnone]

/-- What is said of both tables after edits, and of the rows that stand for them. -/
structure FiniteMaps (edits : List Edit) (start final : DatabaseRun) (rows rows' : RowStore) :
    Prop where
  /-- All edits succeed. -/
  run_eq : start.run (edits.map Edit.step) = (edits.map fun _ => .done, final)
  /-- They do so on the rows, and no transaction is left open. -/
  rows_run_eq : RowStore.run (.idle rows) edits = (edits.map fun _ => .ok (), .idle rows')
  /-- The database is read like its rows. -/
  get_eq : ∀ key, (final.step (.get key)).1 = DatabaseRun.answer .text (rows'.entry key)
  lastShown_eq : ∀ profile,
    (final.step (.lastShown profile)).1 = DatabaseRun.answer .shown (rows'.lastShown profile)
  /-- The documents are a map. -/
  entries : FiniteMap Edit.concernsEntry Edit.text? .text edits (fun key => (start.step (.get key)).1)
    (fun key => (final.step (.get key)).1) rows.entryRows rows'.entryRows
  /-- The profiles are a map. -/
  profiles : FiniteMap Edit.concernsProfile Edit.instant? .shown edits
    (fun profile => (start.step (.lastShown profile)).1)
    (fun profile => (final.step (.lastShown profile)).1) rows.profileRows rows'.profileRows

/-- **The tables are two finite maps**, for every list of edits of a database that was opened from a file
with all tables of its version. -/
theorem tables_are_finite_maps {file : Tables} {db : Database} (hopen : Database.open? file = .ok db)
    (hfile : file.Complete) {rows : RowStore} (hrows : rows.StandsFor db.tables) (inFile : Bool)
    (edits : List Edit) :
    ∃ final rows', FiniteMaps edits ⟨inFile, .opened db⟩ final rows rows' := by
  obtain ⟨hworking, hhas⟩ := Database.has_of_open hopen hfile
  obtain ⟨⟨version, entries, indexed, profiles⟩, working⟩ := db
  obtain ⟨es, hes⟩ := Option.isSome_iff_exists.1 (hhas .entries)
  obtain ⟨ps, hps⟩ := Option.isSome_iff_exists.1 (hhas .profiles)
  cases hworking
  cases hes
  cases hps
  obtain ⟨es', ps', hrun, hentries, hprofiles⟩ :=
    DatabaseRun.run_edits inFile version indexed edits es ps
  obtain ⟨outcomes, rows', u, hrows_run, hrun', hrows'⟩ := RowStore.matches_run inFile edits hrows
  -- both runs are of the same database, so the rows stand for the tables that the edits lead to
  rw [hrun, Prod.mk.injEq] at hrun'
  obtain ⟨hanswers, hfinal⟩ := hrun'
  have houtcomes : outcomes = edits.map fun _ => .ok () := by
    refine List.map_injective_iff.2 DatabaseRun.answer_done_injective (hanswers.symm.trans ?_)
    rw [List.map_map]
    rfl
  cases hfinal
  obtain ⟨rowEntries, rowProfiles⟩ := rows
  obtain ⟨rowEntries', rowProfiles'⟩ := rows'
  refine ⟨_, ⟨rowEntries', rowProfiles'⟩, hrun, houtcomes ▸ hrows_run, fun key => ?_, fun profile => ?_,
    ?_, ?_⟩
  · rw [DatabaseRun.step_get, hrows'.entry_eq]
  · rw [DatabaseRun.step_lastShown, hrows'.lastShown_eq]
  · cases hrows.entries with
    | some hstands =>
        cases hrows'.entries with
        | some hstands' =>
            exact .of_after hstands hstands' hentries (fun _ => DatabaseRun.step_get_of_eq)
              fun _ _ => DatabaseRun.step_get_of_text
  · cases hrows.profiles with
    | some hstands =>
        cases hrows'.profiles with
        | some hstands' =>
            exact .of_after hstands hstands' hprofiles (fun _ => DatabaseRun.step_lastShown_of_eq)
              fun _ _ => DatabaseRun.step_lastShown_of_instant

/-- Caches and profiles with the same names, in a file of version 1 with a payload that is not a text. -/
theorem tables_are_finite_maps_of_shared_names :
    let aa : DocumentKey := ⟨"a", "a"⟩
    let ab : DocumentKey := ⟨"a", "b"⟩
    let ba : DocumentKey := ⟨"b", "a"⟩
    let old : SortedMap DocumentKey PayloadCell := (∅ : SortedMap _ _).insert ba (.text "1")
    let es : SortedMap DocumentKey PayloadCell := old.insert ab .other
    let file : Tables := ⟨1, some es, true, none⟩
    let db : Database := ⟨⟨2, some es, true, some ∅⟩, true⟩
    let rows : RowStore := ⟨some [(ba, .text "1"), (ab, .other)], some []⟩
    let edits : List Edit :=
      [.put aa "2", .setLastShown "a" 5, .deleteProfile "b", .put aa "3", .delete ⟨"b", "b"⟩]
    Database.open? file = .ok db ∧ file.Complete ∧ rows.StandsFor db.tables ∧
      ∃ final rows', FiniteMaps edits ⟨true, .opened db⟩ final rows rows' ∧
        (final.step (.get aa)).1 = .text (some "3") ∧
        (final.step (.get ab)).1 = .text none ∧
        (final.step (.get ba)).1 = .text (some "1") ∧
        (final.step (.lastShown "a")).1 = .shown (some 5) := by
  intro aa ab ba old es file db rows edits
  have hopen : Database.open? file = .ok db := by
    unfold Database.open?
    rw [Tables.migrated_eq]
    rfl
  have hfile : file.Complete := by
    intro version table hle hintroduces
    obtain ⟨rfl, rfl⟩ | ⟨rfl, -⟩ := introduces_iff.1 hintroduces
    · rfl
    · exact absurd (show (2 : Int) ≤ 1 from hle) (by decide)
  have hnil : Rows.Stands ([] : List (DocumentKey × PayloadCell)) ∅ := .nil
  have hold : Rows.Stands [(ba, PayloadCell.text "1")] old := hnil.upsert ba (.text "1")
  have hes : Rows.Stands [(ba, PayloadCell.text "1"), (ab, .other)] es := hold.upsert ab .other
  have hrows : rows.StandsFor db.tables := ⟨.some hes, .some .nil⟩
  obtain ⟨final, rows', h⟩ := tables_are_finite_maps hopen hfile hrows true edits
  refine ⟨hopen, hfile, hrows, final, rows', h, ?_, ?_, ?_, ?_⟩
  · exact h.entries.answer_of_latest aa (.put aa "3") rfl
  · exact h.entries.answer_of_latest ab (.deleteProfile "b") rfl
  · refine (h.entries.answer_of_none ba rfl).trans ?_
    simp only [db, es, old, ba, ab]
    rfl
  · exact h.profiles.answer_of_latest "a" (.setLastShown "a" 5) rfl

end StudyTime
