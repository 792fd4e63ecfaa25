/-
**Migrations are carried out as a whole, or leave no trace.**

A migration issues its statements on a connection, one after the other, and any of them can be refused.
In a transaction they change the working copy and nothing else.  So what is committed is what the whole
migration makes of the database, or else the database is as it was: its version, its tables and their
rows.  Where the migration succeeds the database has the current version and the tables that come with it,
and the rows are those that were there before.

Main definitions:

* `Introduces` — the tables that come with a version;
* `Follows`, `Works` — what the statements of a script do to the log and to the working copy;
* `Tables.BroughtUp`, `AllOrNothing` — what is said of a migration.

Main results:

* `Dialogue.works_climb` — **the steps change the working copy only**;
* `Dialogue.settles_migrate` — a migration that is issued statement by statement comes to what
  `Tables.migrate` says;
* `migrations_all_or_nothing` — **a migration is all or nothing and preserves all rows**.
-/

import StudyTime.Database.Dialogue
import StudyTime.Proofs.Shares

set_option relaxedAutoImplicit false
set_option autoImplicit false

namespace StudyTime

/-! ### What a version comes with -/

/-- The table that a statement creates. -/
def Statement.creates? : Statement → Option TableName
  | .createEntries => some .entries
  | .createProfiles => some .profiles
  | _ => none

/-- The step to this version creates the table. -/
def Introduces (version : Int) (table : TableName) : Prop :=
  ∃ ss s, script version = some ss ∧ s ∈ ss ∧ s.creates? = some table

theorem introduces_iff {version : Int} {table : TableName} :
    Introduces version table ↔
      version = 1 ∧ table = .entries ∨ version = 2 ∧ table = .profiles := by
  constructor
  · rintro ⟨ss, s, hscript, hs, htable⟩
    unfold script at hscript
    split at hscript
    next hone =>
      cases hscript
      simp only [List.mem_cons, List.not_mem_nil, or_false] at hs
      rcases hs with rfl | rfl <;> cases htable
      exact .inl ⟨hone, rfl⟩
    next =>
      split at hscript
      next htwo =>
        cases hscript
        simp only [List.mem_cons, List.not_mem_nil, or_false] at hs
        subst hs
        cases htable
        exact .inr ⟨htwo, rfl⟩
      next => cases hscript
  · rintro (⟨rfl, rfl⟩ | ⟨rfl, rfl⟩)
    · exact ⟨_, .createEntries, rfl, List.mem_cons_self, rfl⟩
    · exact ⟨_, .createProfiles, rfl, List.mem_cons_self, rfl⟩

namespace Tables

/-- The table is there. -/
def Has (t : Tables) : TableName → Prop
  | .entries => t.entries.isSome = true
  | .profiles => t.profiles.isSome = true

/-- The rows of the table of documents, none if it is not there. -/
def entryRows (t : Tables) : List (DocumentKey × PayloadCell) :=
  (t.entries.map SortedMap.toList).getD []

/-- The rows of the table of profiles, none if it is not there. -/
def profileRows (t : Tables) : List (String × ShownCell) :=
  (t.profiles.map SortedMap.toList).getD []

/-- The second database is the first one at the current version. -/
structure BroughtUp (t u : Tables) : Prop where
  version_eq : u.version = 2
  /-- The table of documents comes with version 1, and the table of profiles with version 2. -/
  has_tables : (t.version < 1 → u.Has .entries) ∧ (t.version < 2 → u.Has .profiles)
  /-- Every table is there that comes with a later version than the first database had. -/
  has_of_introduces : ∀ version table, t.version < version → Introduces version table → u.Has table
  /-- No table is lost. -/
  has_of_has : ∀ table, t.Has table → u.Has table
  /-- No row is lost, changed or added. -/
  rows_eq : u.entryRows = t.entryRows ∧ u.profileRows = t.profileRows

/-- No statement does more if some are refused. -/
theorem execute_of_refusals {refuses : Statement → Bool} (ss : List Statement) :
    ∀ {t u : Tables}, execute refuses ss t = some u → execute (fun _ => false) ss t = some u := by
  induction ss with
  | nil => exact fun h => h
  | cons s ss ih =>
      intro t u h
      simp only [execute] at h ⊢
      split at h
      · cases h
      · exact ih h

theorem upgrade_of_refusals {refuses : Statement → Bool} (version : Int) (t : Tables) :
    ∀ {u : Tables}, upgrade refuses version t = .ok u →
      upgrade (fun _ => false) version t = .ok u := by
  fun_induction upgrade refuses version t with
  | case1 => exact fun h => by cases h
  | case2 => exact fun h => by cases h
  | case3 version t hlt next statements hscript t' hexecute =>
      rename_i ih
      intro u h
      rw [upgrade, if_pos hlt]
      simp only [next] at hscript
      simp only [hscript, execute_of_refusals statements hexecute]
      exact ih h
  | case4 version t hlt =>
      intro u h
      rwa [upgrade, if_neg hlt]

/-- A migration that succeeds does what it does if no statement is refused. -/
theorem migrated_of_migrate {refuses : Statement → Bool} {t u : Tables}
    (h : t.migrate refuses = .ok u) : t.migrated = .ok u := by
  unfold migrated migrate
  unfold migrate at h
  split at h
  · cases h
  simp only [Bool.false_eq_true, if_false]
  split at h
  · cases h
  next hlater =>
    rw [if_neg hlater]
    split at h
    next hcurrent => rw [if_pos hcurrent]; exact h
    next hcurrent =>
      rw [if_neg hcurrent]
      split at h
      · cases h
      · cases hupgrade : upgrade refuses t.version t with
        | error f =>
            simp only [hupgrade] at h
            cases h
        | ok t' =>
            simp only [hupgrade] at h
            simp only [upgrade_of_refusals t.version t hupgrade]
            split at h
            · cases h
            · split at h
              · cases h
              · exact h

theorem entryRows_getD (t : Tables) :
    (⟨t.version, some (t.entries.getD ∅), t.indexed, t.profiles⟩ : Tables).entryRows = t.entryRows := by
  obtain ⟨version, entries, indexed, profiles⟩ := t
  cases entries <;> rfl

theorem profileRows_getD (t : Tables) :
    (⟨t.version, t.entries, t.indexed, some (t.profiles.getD ∅)⟩ : Tables).profileRows =
      t.profileRows := by
  obtain ⟨version, entries, indexed, profiles⟩ := t
  cases profiles <;> rfl

/-- The tables of the versions that a migration leads through are there in the end. -/
theorem has_of_migrated {t u : Tables} (h : t.migrated = .ok u) :
    (t.version < 1 → u.Has .entries) ∧ (t.version < 2 → u.Has .profiles) := by
  obtain ⟨htwo, rfl⟩ | ⟨hone, rfl⟩ | ⟨-, rfl⟩ := migrated_cases h
  · exact ⟨fun hlt => by omega, fun hlt => by omega⟩
  · exact ⟨fun hlt => by omega, fun _ => rfl⟩
  · exact ⟨fun _ => rfl, fun _ => rfl⟩

theorem has_of_has_of_migrated {t u : Tables} (h : t.migrated = .ok u) (table : TableName)
    (hhas : t.Has table) : u.Has table := by
  obtain ⟨-, rfl⟩ | ⟨-, rfl⟩ | ⟨-, rfl⟩ := migrated_cases h
  · exact hhas
  · cases table with
    | entries => exact hhas
    | profiles => rfl
  · cases table <;> rfl

theorem rows_of_migrated {t u : Tables} (h : t.migrated = .ok u) :
    u.entryRows = t.entryRows ∧ u.profileRows = t.profileRows := by
  obtain ⟨-, rfl⟩ | ⟨-, rfl⟩ | ⟨-, rfl⟩ := migrated_cases h
  · exact ⟨rfl, rfl⟩
  · exact ⟨rfl, t.profileRows_getD⟩
  · exact ⟨t.entryRows_getD, t.profileRows_getD⟩

/-- A migration brings the database up to the current version. -/
theorem broughtUp_of_migrated {t u : Tables} (h : t.migrated = .ok u) : t.BroughtUp u := by
  obtain ⟨hentries, hprofiles⟩ := has_of_migrated h
  refine ⟨(of_migrated h).1, ⟨hentries, hprofiles⟩, fun version table hlt hintroduces => ?_,
    has_of_has_of_migrated h, rows_of_migrated h⟩
  obtain ⟨rfl, rfl⟩ | ⟨rfl, rfl⟩ := introduces_iff.1 hintroduces
  · exact hentries hlt
  · exact hprofiles hlt

end Tables

/-! ### The log -/

namespace Dialogue

variable {refuses : Statement → Bool}

/-- The statements of a script were issued in order: all of them with success, or those up to one that is
refused. -/
inductive Follows (refuses : Statement → Bool) (plan : List Statement) (d : Dialogue) :
    Except Failure Unit × Dialogue → Prop
  | through (c : Connection Tables) (h : ∀ s ∈ plan, refuses s = false) :
      Follows refuses plan d (.ok (), ⟨c, d.issued ++ plan⟩)
  | stopped (f : Failure) (c : Connection Tables) (before behind : List Statement) (s : Statement)
      (hplan : plan = before ++ s :: behind) (hs : refuses s = true) :
      Follows refuses plan d (.error f, ⟨c, d.issued ++ (before ++ [s])⟩)

namespace Follows

variable {plan plan' : List Statement} {d : Dialogue} {r : Except Failure Unit × Dialogue}

/-- The statements of a script are issued behind those of another one. -/
theorem behind {c : Connection Tables} (hplan : ∀ s ∈ plan, refuses s = false)
    (h : Follows refuses plan' ⟨c, d.issued ++ plan⟩ r) : Follows refuses (plan ++ plan') d r := by
  cases h with
  | through c' h' =>
      rw [List.append_assoc]
      refine .through c' fun s hs => ?_
      rcases List.mem_append.1 hs with hs | hs
      · exact hplan s hs
      · exact h' s hs
  | stopped f c' before behind s hplan' hs =>
      rw [List.append_assoc, ← List.append_assoc plan]
      refine .stopped f c' (plan ++ before) behind s ?_ hs
      rw [hplan', List.append_assoc]

theorem proceed {next : Dialogue → Except Failure Unit × Dialogue} (h : Follows refuses plan d r)
    (hnext : ∀ d', Follows refuses plan' d' (next d')) :
    Follows refuses (plan ++ plan') d (StudyTime.proceed r next) := by
  cases h with
  | stopped f c before behind s hplan hs =>
      refine .stopped f c before (behind ++ plan') s ?_ hs
      rw [hplan, List.append_assoc, List.cons_append]
  | through c h => exact .behind h (hnext _)

theorem attempting (h : Follows refuses plan d r) (context : Context) :
    Follows refuses plan d (StudyTime.attempting context r) := by
  cases h with
  | through c h => exact .through c h
  | stopped f c before behind s hplan hs => exact .stopped _ c before behind s hplan hs

theorem close (h : Follows refuses plan d r) : Follows refuses plan d (Dialogue.close r) := by
  cases h with
  | through c h => exact .through _ h
  | stopped f c before behind s hplan hs => exact .stopped f _ before behind s hplan hs

/-- The statements stand at the beginning of the script. -/
theorem isPrefix (h : Follows refuses plan d r) : ∃ ss, ss <+: plan ∧ r.2.issued = d.issued ++ ss := by
  cases h with
  | through c h => exact ⟨plan, List.prefix_rfl, rfl⟩
  | stopped f c before behind s hplan hs =>
      refine ⟨before ++ [s], ⟨behind, ?_⟩, rfl⟩
      rw [hplan, List.append_assoc, List.singleton_append]

/-- It is the refusals that decide. -/
theorem ok_iff (h : Follows refuses plan d r) (hd : d.issued = []) :
    r.1 = .ok () ↔ ∀ s ∈ r.2.issued, refuses s = false := by
  cases h with
  | through c h => simpa [hd] using h
  | stopped f c before behind s hplan hs =>
      constructor
      · intro h
        cases h
      · intro h
        have hfalse := h s (by simp)
        rw [hs] at hfalse
        cases hfalse

end Follows

theorem follows_issue (s : Statement) (d : Dialogue) : Follows refuses [s] d (issue refuses s d) := by
  unfold issue
  split
  next hs => exact .stopped .engine d.connection [] [] s rfl hs
  next hs => exact .through _ (by simpa using hs)

theorem follows_issueAll (ss : List Statement) : ∀ d, Follows refuses ss d (issueAll refuses ss d) := by
  induction ss with
  | nil =>
      intro d
      have h : Follows refuses [] d (.ok (), ⟨d.connection, d.issued ++ []⟩) :=
        .through d.connection fun s hs => absurd hs List.not_mem_nil
      rwa [List.append_nil] at h
  | cons s ss ih => exact fun d => (follows_issue s d).proceed ih

/-- The statements of all steps that lead up from a version. -/
def stepsFrom (version : Int) : List Statement :=
  if version = 0 then [.createEntries, .createIndex, .createProfiles]
  else if version = 1 then [.createProfiles]
  else []

theorem climb_of_current {version : Int} (h : currentVersion ≤ version) (d : Dialogue) :
    climb refuses version d = (.ok (), d) := by
  rw [climb, if_neg (by omega)]

/-- There is no way up from a negative version. -/
theorem climb_of_neg {version : Int} (h : version < 0) (d : Dialogue) :
    climb refuses version d =
      (.error (.inside (.migration (version + 1)) (.unknownVersion (version + 1))), d) := by
  have hscript : script (version + 1) = none := by
    unfold script
    rw [if_neg (by omega), if_neg (by omega)]
  have hlt : version < currentVersion := by
    simp only [currentVersion]
    omega
  rw [climb, if_pos hlt]
  simp only [stepTo, hscript, attempting_error, proceed_error]

/-- The step to a version issues its script. -/
theorem follows_stepTo {version : Int} {ss : List Statement} (h : script version = some ss)
    (d : Dialogue) : Follows refuses ss d (stepTo refuses version d) := by
  simp only [stepTo, h]
  exact (follows_issueAll ss d).attempting _

theorem follows_climb {version : Int} (h : 0 ≤ version) (d : Dialogue) :
    Follows refuses (stepsFrom version) d (climb refuses version d) := by
  have htwo : ∀ d, Follows refuses [] d (climb refuses 2 d) := by
    intro d
    rw [climb_of_current (Int.le_refl 2)]
    exact follows_issueAll [] d
  have hone : ∀ d, Follows refuses [.createProfiles] d (climb refuses 1 d) := by
    intro d
    have hscript : script (1 + 1) = some [.createProfiles] := rfl
    rw [climb, if_pos (by decide)]
    exact ((follows_stepTo hscript d).attempting _).proceed htwo
  by_cases h0 : version = 0
  · have hscript : script (0 + 1) = some [.createEntries, .createIndex] := rfl
    subst h0
    rw [climb, if_pos (by decide)]
    exact ((follows_stepTo hscript d).attempting _).proceed hone
  by_cases h1 : version = 1
  · subst h1
    exact hone d
  · have hcurrent : currentVersion ≤ version := by
      simp only [currentVersion]
      omega
    rw [climb_of_current hcurrent, stepsFrom, if_neg h0, if_neg h1]
    exact follows_issueAll [] d

/-! ### The working copy -/

/-- What is committed is as it was, and the working copy is what was to be expected, unless that was a
failure. -/
inductive Works (base : Tables) (expected : Except Failure Tables) :
    Except Failure Unit × Dialogue → Prop
  | done (t : Tables) (issued : List Statement) (h : expected = .ok t) :
      Works base expected (.ok (), ⟨⟨base, some t⟩, issued⟩)
  | failed (f : Failure) (working : Option Tables) (issued : List Statement)
      (h : expected = .error f) : Works base expected (.error f, ⟨⟨base, working⟩, issued⟩)

theorem issue_of_refused {s : Statement} (h : refuses s = true) (d : Dialogue) :
    issue refuses s d = (.error .engine, ⟨d.connection, d.issued ++ [s]⟩) := by
  rw [issue, if_pos h]

theorem issue_of_not_refused {s : Statement} (h : refuses s = false) (d : Dialogue) :
    issue refuses s d = (.ok (), ⟨s.perform d.connection, d.issued ++ [s]⟩) := by
  rw [issue, if_neg (by simp [h])]

/-- The statements of a script open and commit no transaction. -/
theorem perform_of_script {version : Int} {ss : List Statement} (h : script version = some ss) :
    ∀ s ∈ ss, ∀ base t : Tables, s.perform ⟨base, some t⟩ = ⟨base, some (s.apply t)⟩ := by
  intro s hs base t
  unfold script at h
  split at h
  · cases h
    simp only [List.mem_cons, List.not_mem_nil, or_false] at hs
    rcases hs with rfl | rfl <;> rfl
  · split at h
    · cases h
      simp only [List.mem_cons, List.not_mem_nil, or_false] at hs
      subst hs
      rfl
    · cases h

/-- A script changes the working copy only. -/
theorem works_issueAll (base : Tables) (ss : List Statement) :
    (∀ s ∈ ss, ∀ t : Tables, s.perform ⟨base, some t⟩ = ⟨base, some (s.apply t)⟩) →
    ∀ (t : Tables) (issued : List Statement),
      Works base ((Tables.execute refuses ss t).elim (.error .engine) .ok)
        (issueAll refuses ss ⟨⟨base, some t⟩, issued⟩) := by
  induction ss with
  | nil => exact fun _ t issued => .done t issued rfl
  | cons s ss ih =>
      intro hss t issued
      rw [issueAll]
      cases hs : refuses s with
      | true =>
          rw [issue_of_refused hs, proceed_error]
          refine .failed .engine (some t) _ ?_
          simp [Tables.execute, hs]
      | false =>
          rw [issue_of_not_refused hs, proceed_ok, hss s List.mem_cons_self]
          have hrest := ih (fun s' hs' => hss s' (List.mem_cons_of_mem s hs')) (s.apply t)
            (issued ++ [s])
          simpa [Tables.execute, hs] using hrest

theorem works_script (refuses : Statement → Bool) {version : Int} {ss : List Statement}
    (h : script version = some ss) (base t : Tables) (issued : List Statement) :
    Works base ((Tables.execute refuses ss t).elim (.error .engine) .ok)
      (issueAll refuses ss ⟨⟨base, some t⟩, issued⟩) :=
  works_issueAll base ss (fun s hs => perform_of_script h s hs base) t issued

/-- **The steps change the working copy only**, and come to what `Tables.upgrade` says. -/
theorem works_climb (base : Tables) (version : Int) (t : Tables) :
    ∀ issued, Works base (Tables.upgrade refuses version t)
      (climb refuses version ⟨⟨base, some t⟩, issued⟩) := by
  fun_induction Tables.upgrade refuses version t with
  | case1 version t hlt next hscript =>
      intro issued
      simp only [next] at hscript
      rw [climb, if_pos hlt]
      simp only [stepTo, hscript, attempting_error, proceed_error]
      exact .failed _ _ _ rfl
  | case2 version t hlt next statements hscript hexecute =>
      intro issued
      simp only [next] at hscript
      have hworks := works_script refuses hscript base t issued
      rw [hexecute] at hworks
      rw [climb, if_pos hlt]
      simp only [stepTo, hscript]
      generalize issueAll refuses statements ⟨⟨base, some t⟩, issued⟩ = r at hworks ⊢
      cases hworks with
      | done t' issued' h => cases h
      | failed f working issued' h =>
          cases h
          exact .failed _ _ _ rfl
  | case3 version t hlt next statements hscript t' hexecute =>
      rename_i ih
      intro issued
      simp only [next] at hscript ih
      have hworks := works_script refuses hscript base t issued
      rw [hexecute] at hworks
      rw [climb, if_pos hlt]
      simp only [stepTo, hscript]
      generalize issueAll refuses statements ⟨⟨base, some t⟩, issued⟩ = r at hworks ⊢
      cases hworks with
      | done u issued' h =>
          cases h
          exact ih issued'
      | failed f working issued' h => cases h
  | case4 version t hlt =>
      intro issued
      rw [climb, if_neg hlt]
      exact .done _ _ rfl

/-! ### The whole migration -/

/-- What is committed in the end is what was to be expected, or it is as it was if that was a failure. -/
inductive Settles (t : Tables) (expected : Except Failure Tables) :
    Except Failure Unit × Dialogue → Prop
  | done (u : Tables) (issued : List Statement) (h : expected = .ok u) :
      Settles t expected (.ok (), ⟨.idle u, issued⟩)
  | failed (f : Failure) (issued : List Statement) (h : expected = .error f) :
      Settles t expected (.error f, ⟨.idle t, issued⟩)

/-- What stands in the transaction is committed as a whole or rolled back. -/
theorem settles_ascend (refuses : Statement → Bool) (t : Tables) (version : Int)
    (issued : List Statement) :
    Settles t ((Tables.upgrade refuses version t).bind fun u =>
        if refuses .writeVersion then .error (.inside .writeVersion .engine)
        else if refuses .commit then .error (.inside .commit .engine)
        else .ok (Statement.writeVersion.apply u))
      (ascend refuses version ⟨⟨t, some t⟩, issued⟩) := by
  have hworks : Works t (Tables.upgrade refuses version t)
      (climb refuses version ⟨⟨t, some t⟩, issued⟩) := works_climb t version t issued
  unfold ascend
  generalize climb refuses version ⟨⟨t, some t⟩, issued⟩ = r at hworks ⊢
  cases hworks with
  | failed f working issued' h =>
      rw [h]
      exact .failed _ _ rfl
  | done u issued' h =>
      rw [h, proceed_ok]
      -- the working copy is complete by now, and a refusal still rolls it back
      cases hwrite : refuses .writeVersion with
      | true =>
          rw [issue_of_refused hwrite]
          exact .failed _ _ rfl
      | false =>
          rw [issue_of_not_refused hwrite, attempting_ok, proceed_ok]
          cases hcommit : refuses .commit with
          | true =>
              rw [issue_of_refused hcommit]
              exact .failed _ _ rfl
          | false =>
              rw [issue_of_not_refused hcommit]
              exact .done _ _ rfl

theorem settles_migrateFrom (hread : refuses .readVersion = false) (t : Tables)
    (issued : List Statement) :
    Settles t (t.migrate refuses) (migrateFrom refuses t.version ⟨.idle t, issued⟩) := by
  unfold Tables.migrate migrateFrom
  rw [hread, if_neg Bool.false_ne_true]
  by_cases hlater : currentVersion < t.version
  · rw [if_pos hlater, if_pos hlater]
    exact .failed _ _ rfl
  rw [if_neg hlater, if_neg hlater]
  by_cases hcurrent : t.version = currentVersion
  · rw [if_pos hcurrent, if_pos hcurrent]
    exact .done _ _ rfl
  rw [if_neg hcurrent, if_neg hcurrent]
  cases hbegin : refuses .begin with
  | true =>
      rw [issue_of_refused hbegin]
      exact .failed _ _ rfl
  | false =>
      rw [issue_of_not_refused hbegin, attempting_ok, proceed_ok, if_neg Bool.false_ne_true]
      have hsettles := settles_ascend refuses t t.version (issued ++ [.begin])
      cases hupgrade : Tables.upgrade refuses t.version t with
      | error f =>
          rw [hupgrade] at hsettles
          exact hsettles
      | ok u =>
          rw [hupgrade] at hsettles
          exact hsettles

/-- A migration that is issued statement by statement comes to what `Tables.migrate` says. -/
theorem settles_migrate (refuses : Statement → Bool) (t : Tables) :
    Settles t (t.migrate refuses) (migrate refuses (.start t)) := by
  unfold migrate
  cases hread : refuses .readVersion with
  | true =>
      rw [issue_of_refused hread, Tables.migrate, hread, if_pos rfl]
      exact .failed _ _ rfl
  | false =>
      rw [issue_of_not_refused hread, attempting_ok, proceed_ok]
      exact settles_migrateFrom hread t _

/-! ### The statements of a migration -/

/-- The statements of a migration from a version that is not too late and not negative. -/
def planFrom (version : Int) : List Statement :=
  .readVersion ::
    if version = currentVersion then []
    else .begin :: (stepsFrom version ++ [.writeVersion, .commit])

/-- No statement is issued twice. -/
theorem nodup_planFrom (version : Int) : (planFrom version).Nodup := by
  unfold planFrom stepsFrom
  split
  · decide
  · split
    · decide
    · split <;> decide

theorem follows_ascend {version : Int} (h : 0 ≤ version) (d : Dialogue) :
    Follows refuses (stepsFrom version ++ [.writeVersion, .commit]) d (ascend refuses version d) := by
  refine ((follows_climb h d).proceed fun d => ?_).close
  exact ((follows_issue .writeVersion d).attempting _).proceed fun d =>
    (follows_issue .commit d).attempting _

theorem follows_migrateFrom {version : Int} (h0 : 0 ≤ version) (h2 : version ≤ currentVersion)
    (d : Dialogue) : Follows refuses
      (if version = currentVersion then [] else .begin :: (stepsFrom version ++ [.writeVersion, .commit]))
      d (migrateFrom refuses version d) := by
  unfold migrateFrom
  rw [if_neg (show ¬ currentVersion < version by omega)]
  by_cases hcurrent : version = currentVersion
  · rw [if_pos hcurrent, if_pos hcurrent]
    exact follows_issueAll [] d
  · rw [if_neg hcurrent, if_neg hcurrent]
    exact ((follows_issue .begin d).attempting _).proceed (follows_ascend h0)

theorem follows_migrate {t : Tables} (h0 : 0 ≤ t.version) (h2 : t.version ≤ currentVersion) :
    Follows refuses (planFrom t.version) (.start t) (migrate refuses (.start t)) := by
  unfold migrate
  cases hread : refuses .readVersion with
  | true =>
      rw [issue_of_refused hread]
      exact .stopped _ _ [] _ .readVersion rfl hread
  | false =>
      have hplan : ∀ s ∈ [Statement.readVersion], refuses s = false := by simpa using hread
      rw [issue_of_not_refused hread, attempting_ok, proceed_ok]
      exact .behind hplan (follows_migrateFrom h0 h2 _)

/-- From any other version the migration fails before a script is issued. -/
theorem migrate_of_outside (refuses : Statement → Bool) {t : Tables}
    (h : t.version < 0 ∨ currentVersion < t.version) :
    ∃ f, (migrate refuses (.start t)).1 = .error f ∧
      (migrate refuses (.start t)).2.issued <+: [.readVersion, .begin] := by
  have hone : [Statement.readVersion] <+: [.readVersion, .begin] := ⟨[.begin], rfl⟩
  unfold migrate
  cases hread : refuses .readVersion with
  | true =>
      rw [issue_of_refused hread]
      exact ⟨_, rfl, hone⟩
  | false =>
      rw [issue_of_not_refused hread, attempting_ok, proceed_ok]
      change ∃ f, (migrateFrom refuses t.version _).1 = _ ∧
        (migrateFrom refuses t.version _).2.issued <+: _
      unfold migrateFrom
      by_cases hlater : currentVersion < t.version
      · rw [if_pos hlater]
        exact ⟨_, rfl, hone⟩
      · have hneg : t.version < 0 := by omega
        have hcurrent : t.version ≠ currentVersion := by
          simp only [currentVersion]
          omega
        rw [if_neg hlater, if_neg hcurrent]
        cases hbegin : refuses .begin with
        | true =>
            rw [issue_of_refused hbegin]
            exact ⟨_, rfl, List.prefix_rfl⟩
        | false =>
            rw [issue_of_not_refused hbegin, attempting_ok, proceed_ok]
            unfold ascend
            rw [climb_of_neg hneg]
            exact ⟨_, rfl, List.prefix_rfl⟩

end Dialogue

/-! ### All or nothing -/

/-- What is said of a migration of a database, of which the engine refuses some statements. -/
structure AllOrNothing (refuses : Statement → Bool) (t : Tables)
    (out : Except Failure Unit × Dialogue) : Prop where
  /-- Issued statement by statement, it is the migration that opens a database. -/
  migrate_eq : t.migrate refuses = out.1.map fun _ => out.2.connection.committed
  /-- No transaction is left open. -/
  working_eq : out.2.connection.working = none
  /-- Every statement is issued at most once, so to refuse it is to refuse it wherever it stands. -/
  nodup_issued : out.2.issued.Nodup
  /-- It succeeds from the versions that there are, unless a statement is refused. -/
  ok_iff : out.1 = .ok () ↔
    (0 ≤ t.version ∧ t.version ≤ 2) ∧ ∀ s ∈ out.2.issued, refuses s = false
  /-- Then the database is brought up to date, and all rows are kept. -/
  broughtUp : out.1 = .ok () → t.BroughtUp out.2.connection.committed
  /-- To migrate it again changes nothing, and succeeds if the version can be read. -/
  again : out.1 = .ok () → ∀ refuses' : Statement → Bool,
    (Dialogue.migrate refuses' (.start out.2.connection.committed)).2.connection =
      .idle out.2.connection.committed ∧
    ((Dialogue.migrate refuses' (.start out.2.connection.committed)).1 = .ok () ↔
      refuses' .readVersion = false)
  /-- A migration that fails leaves the version, the tables and their rows as they were. -/
  undone : ∀ f, out.1 = .error f → out.2.connection.committed = t

namespace Dialogue

/-- A database of the current version is left as it is. -/
theorem migrate_of_current {t : Tables} (h : t.version = currentVersion) (refuses : Statement → Bool) :
    (migrate refuses (.start t)).2.connection = .idle t ∧
    ((migrate refuses (.start t)).1 = .ok () ↔ refuses .readVersion = false) := by
  unfold migrate
  cases hread : refuses .readVersion with
  | true =>
      rw [issue_of_refused hread]
      refine ⟨rfl, fun h => ?_, fun h => ?_⟩ <;> cases h
  | false =>
      rw [issue_of_not_refused hread, attempting_ok, proceed_ok]
      change (migrateFrom refuses t.version _).2.connection = _ ∧
        ((migrateFrom refuses t.version _).1 = _ ↔ _)
      rw [migrateFrom, if_neg (by omega), if_pos h]
      exact ⟨rfl, fun _ => rfl, fun _ => rfl⟩

theorem ok_iff_migrate (refuses : Statement → Bool) (t : Tables) :
    (migrate refuses (.start t)).1 = .ok () ↔
      (0 ≤ t.version ∧ t.version ≤ 2) ∧
        ∀ s ∈ (migrate refuses (.start t)).2.issued, refuses s = false := by
  by_cases hrange : 0 ≤ t.version ∧ t.version ≤ 2
  · rw [(follows_migrate hrange.1 hrange.2).ok_iff rfl]
    exact (and_iff_right hrange).symm
  · have houtside : t.version < 0 ∨ currentVersion < t.version := by
      simp only [currentVersion]
      omega
    obtain ⟨f, hf, -⟩ := migrate_of_outside refuses houtside
    rw [hf]
    exact ⟨fun h => (by cases h), fun h => absurd h.1 hrange⟩

theorem nodup_issued_migrate (refuses : Statement → Bool) (t : Tables) :
    (migrate refuses (.start t)).2.issued.Nodup := by
  by_cases hrange : 0 ≤ t.version ∧ t.version ≤ currentVersion
  · have hfollows : Follows refuses (planFrom t.version) (.start t) (migrate refuses (.start t)) :=
      follows_migrate hrange.1 hrange.2
    obtain ⟨ss, hss, hissued⟩ := hfollows.isPrefix
    rw [hissued]
    exact hss.sublist.nodup (nodup_planFrom t.version)
  · have houtside : t.version < 0 ∨ currentVersion < t.version := by omega
    obtain ⟨-, -, hprefix⟩ := migrate_of_outside refuses houtside
    exact hprefix.sublist.nodup (by decide)

end Dialogue

/-- **A migration is all or nothing and preserves all rows**, whatever version the database has, whatever is
in its tables, and whichever statements are refused. -/
theorem migrations_all_or_nothing (refuses : Statement → Bool) (t : Tables) :
    AllOrNothing refuses t (Dialogue.migrate refuses (.start t)) := by
  have hok := Dialogue.ok_iff_migrate refuses t
  have hnodup := Dialogue.nodup_issued_migrate refuses t
  have hsettles := Dialogue.settles_migrate refuses t
  generalize Dialogue.migrate refuses (.start t) = out at hok hnodup hsettles
  cases hsettles with
  | done u issued h =>
      have hup := Tables.broughtUp_of_migrated (Tables.migrated_of_migrate h)
      exact {
        migrate_eq := h
        working_eq := rfl
        nodup_issued := hnodup
        ok_iff := hok
        broughtUp := fun _ => hup
        again := fun _ => Dialogue.migrate_of_current hup.version_eq
        undone := fun f hf => by cases hf }
  | failed f issued h =>
      exact {
        migrate_eq := h
        working_eq := rfl
        nodup_issued := hnodup
        ok_iff := hok
        broughtUp := fun h => by cases h
        again := fun h => by cases h
        undone := fun _ _ => rfl }

end StudyTime
