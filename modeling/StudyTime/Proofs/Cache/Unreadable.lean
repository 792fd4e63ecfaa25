/-
**A document that cannot be loaded is not overwritten.**

A cache without a document over a text that stands for none, or over a store that refuses to load it, is
stuck: reads and changes attempt a load, and each of them answers that it failed.  No change is computed,
nothing is stored, and the text stays as it is, so that it can still be rescued.  Only deleting the
document helps.  Then the blank document is in memory, without a load, and everything goes on from there.

Main definitions:

* `Cache.LoadFails` — a load that is attempted now fails;
* `CacheStep.Denied` — the answers of a cache that is stuck;
* `CacheRun.Untouched` — what steps leave behind on which nothing can be loaded;
* `CacheRun.Recovery` — what becomes of a cache whose document is deleted.

Main results:

* `CacheRun.untouched_run` — **as long as loads fail and nothing is deleted, nothing is touched**;
* `CacheRun.recovery_step` — **the first command that deletes the document brings the cache back**;
* `CacheRun.unloadable_not_overwritten` — both for new caches over corrupt texts and for refused loads.
-/

import StudyTime.Proofs.Cache.Held

set_option relaxedAutoImplicit false
set_option autoImplicit false

namespace StudyTime

/-! ### Commands and changes -/

namespace Command

variable {α : Type}

/-- Whether the document is deleted. -/
def isClear : Command α → Bool
  | .clear => true
  | .update _ => false

/-- The command with another change. -/
def mapChange (g : (α → Option α) → α → Option α) : Command α → Command α
  | .update change => .update (g change)
  | .clear => .clear

theorem mapChange_id : (mapChange fun change => change) = (id : Command α → Command α) := by
  funext cmd
  cases cmd <;> rfl

/-- The answer if nothing can be loaded or deleted. -/
def Denied (key : DocumentKey) (v : Except CacheError (Reply α)) : Command α → Prop
  | .update _ => ∃ f, v = .error (.load key f)
  | .clear => v = .error (.persist key (.injected .delete))

end Command

namespace CacheStep

variable {α : Type}

/-- Whether the document is deleted by one of the commands. -/
def clears (st : CacheStep α) : Bool := st.commands.any Command.isClear

/-- The step with other changes. -/
def mapChanges (g : (α → Option α) → α → Option α) : CacheStep α → CacheStep α
  | .write cmd => .write (cmd.mapChange g)
  | .batch cmds awaited => .batch (cmds.map (Command.mapChange g)) awaited
  | st => st

theorem mapChanges_id (st : CacheStep α) : (st.mapChanges fun change => change) = st := by
  cases st <;> simp [mapChanges, Command.mapChange_id]

/-- The answer to commands, made up of the answers to each of them. -/
inductive Answers : CacheStep α → List (Except CacheError (Reply α)) → CacheAnswer α → Prop
  | write (cmd : Command α) (v : Except CacheError (Reply α)) :
      Answers (.write cmd) [v] (.written v)
  | batch (cmds : List (Command α)) (awaited : List Nat) (vs : List (Except CacheError (Reply α))) :
      vs.length = cmds.length →
      Answers (.batch cmds awaited) vs
        (.many (vs.mapIdx fun n v => if n ∈ awaited then some v else none))

/-- The answers if nothing can be loaded or deleted. -/
inductive Denied (key : DocumentKey) : CacheStep α → CacheAnswer α → Prop
  | read (f : Failure) : Denied key .read (.value (.error (.load key f)))
  | prime (f : Failure) : Denied key .prime (.primed (.error (.load key f)))
  | commands {st : CacheStep α} {vs : List (Except CacheError (Reply α))} {a : CacheAnswer α} :
      st.Answers vs a → (∀ w ∈ st.commands.zip vs, w.1.Denied key w.2) → Denied key st a
  | other {st : CacheStep α} {a : CacheAnswer α} : st.asks = false → Denied key st a

end CacheStep

/-! ### A cache without a document -/

namespace Cache

variable {α : Type} {d : DocumentType α} {key : DocumentKey} {m : Memory}

/-- A load that is attempted now fails. -/
def LoadFails (d : DocumentType α) (key : DocumentKey) (m : Memory) : Prop :=
  m.refused .load = true ∨ ∃ f, decode d key (m.payload key) = .error f

theorem LoadFails.of_uncounted (h : LoadFails d key m) {m' : Memory}
    (hm : m'.uncounted = m.uncounted) : LoadFails d key m' := by
  unfold LoadFails
  rw [Memory.refused_eq_of_uncounted hm, Memory.payload_eq_of_uncounted key hm]
  exact h

/-- If loads fail then a read fails, and a load was attempted. -/
theorem LoadFails.fetches (h : LoadFails d key m) (writing : Bool) :
    ∃ f, Fetches d key ⟨none, writing⟩ m (.error (.load key f), ⟨none, writing⟩, m.count .load) := by
  cases hload : m.refused .load with
  | true => exact ⟨_, .refused rfl hload⟩
  | false =>
      obtain hrefused | ⟨f, hdecode⟩ := h
      · rw [hload] at hrefused
        cases hrefused
      · exact ⟨f, .undecoded rfl hload hdecode⟩

theorem Fetches.held_or_writing {c c' : Cache α} {m' : Memory} {v : Except CacheError α}
    (h : Fetches d key c m (v, c', m')) (hc : c.held.isSome ∨ c.writing = true) :
    c'.held.isSome ∨ c'.writing = true := by
  cases h with
  | held | refused | undecoded => exact hc
  | loaded => exact .inl rfl

/-- Only a change of a document that was loaded takes the writer down. -/
theorem Writes.held_or_writing {cmd : Command α} {c c' : Cache α} {m' : Memory}
    {v : Except CacheError (Reply α)} (h : Writes d key c m cmd (v, c', m'))
    (hc : c.held.isSome ∨ c.writing = true) : c'.held.isSome ∨ c'.writing = true := by
  cases h with
  | closed | undeleted => exact hc
  | cleared | committed => exact .inl rfl
  | unloaded _ hfetch | unwritable _ hfetch | unstored _ hfetch => exact hfetch.held_or_writing hc
  | aborted _ hfetch => exact .inl (by rw [hfetch.held_eq, Option.isSome_some])

/-- If loads fail and deleting is refused then every command is denied.  It touches nothing but the count,
and the change does not matter. -/
theorem LoadFails.writes (h : LoadFails d key m) {cmd : Command α}
    (hcmd : cmd.isClear = true → m.refused .delete = true) :
    ∃ v m', cmd.Denied key v ∧ m'.uncounted = m.uncounted ∧
      m'.attempts .store = m.attempts .store ∧
      ∀ g, Writes d key ⟨none, true⟩ m (cmd.mapChange g) (v, ⟨none, true⟩, m') := by
  cases cmd with
  | clear => exact ⟨_, m.count .delete, rfl, rfl, rfl, fun g => .undeleted rfl (hcmd rfl)⟩
  | update change =>
      obtain ⟨f, hfetch⟩ := h.fetches true
      exact ⟨_, m.count .load, ⟨f, rfl⟩, rfl, rfl, fun g => .unloaded rfl hfetch⟩

/-- If loads fail and deleting is refused then all commands are denied. -/
theorem LoadFails.serial {cmds : List (Command α)} :
    ∀ {m : Memory}, LoadFails d key m →
      (∀ cmd ∈ cmds, cmd.isClear = true → m.refused .delete = true) →
      ∃ vs m', vs.length = cmds.length ∧ (∀ w ∈ cmds.zip vs, w.1.Denied key w.2) ∧
        m'.uncounted = m.uncounted ∧ m'.attempts .store = m.attempts .store ∧
        (∀ v ∈ loads d key cmds ⟨none, true⟩ m, v.isOk = false) ∧
        ∀ g, serial d key (cmds.map (Command.mapChange g)) ⟨none, true⟩ m =
          (vs, ⟨none, true⟩, m') := by
  induction cmds with
  | nil =>
      intro m _ _
      exact ⟨[], m, rfl, fun w hw => (by cases hw), rfl, rfl, fun v hv => (by cases hv), fun g => rfl⟩
  | cons cmd cmds ih =>
      intro m h hcmds
      obtain ⟨v, m₁, hdenied, hm₁, hstore₁, hwrite⟩ := h.writes (hcmds cmd List.mem_cons_self)
      obtain ⟨vs, m', hlength, hdenied', hm', hstore', hloads, hserial⟩ :=
        ih (h.of_uncounted hm₁) fun cmd' hcmd' hclear => by
          rw [Memory.refused_eq_of_uncounted hm₁]
          exact hcmds cmd' (List.mem_cons_of_mem _ hcmd') hclear
      refine ⟨v :: vs, m', congrArg (· + 1) hlength, ?_, hm'.trans hm₁, hstore'.trans hstore₁, ?_, ?_⟩
      · intro w hw
        rcases List.mem_cons.1 hw with rfl | hw
        · exact hdenied
        · exact hdenied' w hw
      · have hout := (hwrite fun change => change).eq
        rw [Command.mapChange_id, id_eq] at hout
        obtain ⟨f, hfetch⟩ := h.fetches true
        intro v' hv'
        rw [loads, hout] at hv'
        rcases List.mem_append.1 hv' with hv' | hv'
        · split at hv'
          · rw [hfetch.eq] at hv'
            cases List.mem_singleton.1 hv'
            rfl
          · cases hv'
        · exact hloads v' hv'
      · intro g
        rw [List.map_cons, serial_cons _ _ (hwrite g).eq, hserial g]

/-- If loads fail then commands are denied until one of them deletes the document; those behind it are
performed on the blank one. -/
theorem LoadFails.serial_clear (h : LoadFails d key m) (hdelete : m.refused .delete = false)
    {front : List (Command α)} (hfront : ∀ cmd ∈ front, cmd.isClear = false) (back : List (Command α)) :
    ∃ denied later c m',
      Cache.serial d key (front ++ .clear :: back) ⟨none, true⟩ m =
        (denied ++ .ok .cleared :: later, c, m') ∧
      denied.length = front.length ∧ (∀ w ∈ front.zip denied, w.1.Denied key w.2) ∧
      (∀ v ∈ later, ∀ e, v = .error e → e.isLoad = false) ∧
      c.held = some ((back.zip later).foldl (stand d) d.blank) ∧
      ∀ v ∈ loads d key (front ++ .clear :: back) ⟨none, true⟩ m, v.isOk = false := by
  obtain ⟨denied, m₁, hlength, hdenied, hm₁, -, hloads, hserial⟩ := h.serial fun cmd hcmd hclear => by
    rw [hfront cmd hcmd] at hclear
    cases hclear
  have hfronts := hserial fun change => change
  rw [Command.mapChange_id, List.map_id] at hfronts
  -- nothing was deleted in front of the first one, so it is not refused and leaves the blank document
  have hclear : Writes d key ⟨none, true⟩ m₁ .clear
      (.ok .cleared, ⟨some d.blank, true⟩, (m₁.count .delete).setPayload key none) :=
    .cleared rfl (by rw [Memory.refused_eq_of_uncounted hm₁]; exact hdelete)
  generalize hbacks : Cache.serial d key back ⟨some d.blank, true⟩
    ((m₁.count .delete).setPayload key none) = out
  obtain ⟨later, c, m'⟩ := out
  obtain ⟨hheld, -, -, herrors⟩ := held_serial rfl hbacks
  refine ⟨denied, later, c, m', ?_, hlength, hdenied, herrors, hheld, ?_⟩
  · rw [serial_append, hfronts, serial_cons _ _ hclear.eq, hbacks]
  · have hback : loads d key back ⟨some d.blank, true⟩ ((m₁.count .delete).setPayload key none) = [] :=
      loads_of_held rfl back
    rw [loads_append, hfronts, loads, hclear.eq]
    simp only [loadsFor, hback, Bool.false_eq_true, if_false, List.append_nil]
    exact hloads

end Cache

namespace CacheRun

variable {α : Type} {d : DocumentType α} {key : DocumentKey}

/-! ### As long as nothing is deleted -/

/-- The state of a cache that is stuck.  Its writer is there: no change was performed that could have taken
it down. -/
structure Stuck (d : DocumentType α) (key : DocumentKey) (r : CacheRun α) : Prop where
  cache_eq : r.cache = ⟨none, true⟩
  loadFails : Cache.LoadFails d key r.memory

/-- What a step leaves behind that is denied. -/
structure Spared (d : DocumentType α) (key : DocumentKey) (r : CacheRun α) (st : CacheStep α) : Prop where
  denied : st.Denied key (r.step d key st).1
  cache_eq : (r.step d key st).2.cache = ⟨none, true⟩
  payload_eq : (r.step d key st).2.memory.payload key = r.memory.payload key
  attempts_store : (r.step d key st).2.memory.attempts .store = r.memory.attempts .store
  unloaded : ∀ v ∈ loadsAt d key r st, v.isOk = false
  /-- No change is computed: others would have done as well. -/
  step_mapChanges : ∀ g, r.step d key (st.mapChanges g) = r.step d key st

theorem spared_of_step_eq {r : CacheRun α} {st : CacheStep α} (a : CacheAnswer α) (m' : Memory)
    (hstep : ∀ g, r.step d key (st.mapChanges g) = (a, ⟨⟨none, true⟩, m'⟩))
    (hdenied : st.Denied key a) (hm' : m'.uncounted = r.memory.uncounted)
    (hstore : m'.attempts .store = r.memory.attempts .store)
    (hloads : ∀ v ∈ loadsAt d key r st, v.isOk = false) : Spared d key r st := by
  have hstep' := hstep fun change => change
  rw [CacheStep.mapChanges_id] at hstep'
  refine ⟨?_, ?_, ?_, ?_, hloads, fun g => (hstep g).trans hstep'.symm⟩ <;> rw [hstep']
  · exact hdenied
  · exact Memory.payload_eq_of_uncounted key hm'
  · exact hstore

/-- **A step is denied by a cache that is stuck**, unless it deletes the document or replaces the text. -/
theorem Stuck.step {r : CacheRun α} (h : r.Stuck d key) {st : CacheStep α} (hst : st.leavesText = true)
    (hclear : st.clears = true → r.memory.refused .delete = true) : Spared d key r st := by
  obtain ⟨c, m⟩ := r
  obtain ⟨hcache, hload⟩ := h
  dsimp only at hcache hload hclear
  subst hcache
  obtain ⟨f, hfetch⟩ := hload.fetches true
  have hcmds : ∀ cmd ∈ st.commands, cmd.isClear = true → m.refused .delete = true :=
    fun cmd hcmd hclears => hclear (List.any_eq_true.2 ⟨cmd, hcmd, hclears⟩)
  obtain ⟨vs, m', hlength, hdenied, hm', hstore, hloads, hserial⟩ := hload.serial hcmds
  have hfetched : ∀ v ∈ [(Cache.fetch d key ⟨none, true⟩ m).1], v.isOk = false := by
    intro v hv
    rw [List.mem_singleton.1 hv, hfetch.eq]
    rfl
  cases st with
  | read =>
      refine spared_of_step_eq _ (m.count .load) (fun g => ?_) (.read f) rfl rfl hfetched
      simp only [CacheStep.mapChanges, CacheRun.step, hfetch.eq]
  | prime =>
      refine spared_of_step_eq _ (m.count .load) (fun g => ?_) (.prime f) rfl rfl hfetched
      simp only [CacheStep.mapChanges, CacheRun.step, hfetch.eq, Except.map]
  | write cmd =>
      obtain ⟨v, m₁, hdenied₁, hm₁, hstore₁, hwrite⟩ :=
        hload.writes (hcmds cmd (List.mem_singleton_self cmd))
      refine spared_of_step_eq _ m₁ (fun g => ?_) (.commands (.write cmd v) ?_) hm₁ hstore₁ hloads
      · rw [CacheStep.mapChanges, CacheRun.step, (hwrite g).eq]
      · simpa [CacheStep.commands] using hdenied₁
  | batch cmds awaited =>
      refine spared_of_step_eq _ m' (fun g => ?_) (.commands (.batch cmds awaited vs hlength) hdenied) hm'
        hstore hloads
      have hout := hserial g
      dsimp only [CacheStep.commands] at hout
      rw [CacheStep.mapChanges, step_batch, hout]
  | refuse op on => exact ⟨.other rfl, rfl, rfl, rfl, hloads, fun g => rfl⟩
  | payload => exact ⟨.other rfl, rfl, rfl, rfl, hloads, fun g => rfl⟩
  | setPayload text => cases hst
  | counts => exact ⟨.other rfl, rfl, rfl, rfl, hloads, fun g => rfl⟩
  | restart =>
      refine spared_of_step_eq .done (m.count .load) (fun g => ?_) (.other rfl) rfl rfl hfetched
      simp only [CacheStep.mapChanges, CacheRun.step, start, Cache.create, hfetch.eq]

/-- What steps leave behind that are all denied. -/
structure Untouched (d : DocumentType α) (key : DocumentKey) (r : CacheRun α)
    (steps : List (CacheStep α)) : Prop where
  denied : Throughout d key (fun q st => st.Denied key (q.step d key st).1) r steps
  /-- There is no document in memory, and the writer is there. -/
  cache_eq : (r.run d key steps).2.cache = ⟨none, true⟩
  payload_eq : (r.run d key steps).2.memory.payload key = r.memory.payload key
  attempts_store : (r.run d key steps).2.memory.attempts .store = r.memory.attempts .store
  unloaded : ∀ v ∈ loads d key r steps, v.isOk = false
  /-- No change is computed: others would have done as well. -/
  run_mapChanges : ∀ g, r.run d key (steps.map (CacheStep.mapChanges g)) = r.run d key steps

/-- **As long as loads fail and nothing is deleted, nothing is touched.** -/
theorem untouched_run {steps : List (CacheStep α)} :
    ∀ {r : CacheRun α}, r.cache = ⟨none, true⟩ → (∀ st ∈ steps, st.leavesText = true) →
      Throughout d key (fun q st => Cache.LoadFails d key q.memory ∧
        (st.clears = true → q.memory.refused .delete = true)) r steps →
      Untouched d key r steps := by
  induction steps with
  | nil =>
      intro r hcache _ _
      exact ⟨trivial, hcache, rfl, rfl, fun v hv => (by cases hv), fun g => rfl⟩
  | cons st steps ih =>
      intro r hcache hsteps hfails
      obtain ⟨⟨hload, hclear⟩, hfails'⟩ := hfails
      obtain ⟨hst, hsteps'⟩ := List.forall_mem_cons.1 hsteps
      have hspared := Stuck.step ⟨hcache, hload⟩ hst hclear
      have hrest := ih hspared.cache_eq hsteps' hfails'
      refine ⟨⟨hspared.denied, hrest.denied⟩, hrest.cache_eq, hrest.payload_eq.trans hspared.payload_eq,
        hrest.attempts_store.trans hspared.attempts_store, ?_, ?_⟩
      · intro v hv
        rcases List.mem_append.1 hv with hv | hv
        · exact hspared.unloaded v hv
        · exact hrest.unloaded v hv
      · intro g
        rw [List.map_cons, run_cons, run_cons, hspared.step_mapChanges g, hrest.run_mapChanges g]

/-- A text that stands for no document stays there, so that loads go on to fail. -/
theorem throughout_loadFails {f : Failure} {steps : List (CacheStep α)} :
    ∀ {r : CacheRun α}, r.cache = ⟨none, true⟩ →
      Cache.decode d key (r.memory.payload key) = .error f → (∀ st ∈ steps, st.leavesText = true) →
      Throughout d key (fun q st => st.clears = true → q.memory.refused .delete = true) r steps →
      Throughout d key (fun q st => Cache.LoadFails d key q.memory ∧
        (st.clears = true → q.memory.refused .delete = true)) r steps := by
  induction steps with
  | nil =>
      intro r _ _ _ _
      trivial
  | cons st steps ih =>
      intro r hcache hdecode hsteps hclears
      obtain ⟨hst, hsteps'⟩ := List.forall_mem_cons.1 hsteps
      have hload : Cache.LoadFails d key r.memory := .inr ⟨f, hdecode⟩
      have hspared := Stuck.step ⟨hcache, hload⟩ hst hclears.1
      refine ⟨⟨hload, hclears.1⟩, ih hspared.cache_eq ?_ hsteps' hclears.2⟩
      rw [hspared.payload_eq]
      exact hdecode

/-! ### Once the document is deleted -/

/-- What becomes of a cache when a step deletes its document.  The commands in front of the first one that
deletes it are denied, and those behind it are performed on the blank document; so is all that is asked
until there is a new cache. -/
structure Recovery (d : DocumentType α) (key : DocumentKey) (r : CacheRun α) (st : CacheStep α)
    (front back : List (Command α)) (denied later : List (Except CacheError (Reply α))) : Prop where
  answers : st.Answers (denied ++ .ok .cleared :: later) (r.step d key st).1
  length_denied : denied.length = front.length
  front_denied : ∀ w ∈ front.zip denied, w.1.Denied key w.2
  later_errors : ∀ v ∈ later, ∀ e, v = .error e → e.isLoad = false
  after : ∀ steps : List (CacheStep α), (∀ st' ∈ steps, st'.replaces = false) →
    let q := (r.step d key st).2
    let a := (back.zip later ++ writings d key q steps).foldl (stand d) d.blank
    ((q.run d key steps).2.step d key .read).1 = .value (.ok a) ∧
    (∀ v ∈ (q.run d key steps).1, ∀ e ∈ v.errors, e.isLoad = false) ∧
    ∀ v ∈ loads d key r (st :: steps), v.isOk = false

/-- Commands are answered one by one. -/
theorem answers_step (d : DocumentType α) (key : DocumentKey) (r : CacheRun α) {st : CacheStep α}
    (hst : st.commands ≠ []) :
    st.Answers (r.cache.serial d key st.commands r.memory).1 (r.step d key st).1 ∧
    (r.step d key st).2 = ⟨(r.cache.serial d key st.commands r.memory).2.1,
      (r.cache.serial d key st.commands r.memory).2.2⟩ ∧
    loadsAt d key r st = r.cache.loads d key st.commands r.memory := by
  cases st with
  | write cmd => exact ⟨.write cmd _, rfl, rfl⟩
  | batch cmds awaited =>
      rw [step_batch]
      exact ⟨.batch cmds awaited _ (Cache.length_serial cmds _ _), rfl, rfl⟩
  | read | prime | refuse | payload | setPayload | counts | restart => exact absurd rfl hst

/-- **The first command that deletes the document brings the cache back.** -/
theorem recovery_step {r : CacheRun α} (h : r.Stuck d key) (hdelete : r.memory.refused .delete = false)
    {st : CacheStep α} {front back : List (Command α)} (hst : st.commands = front ++ .clear :: back)
    (hfront : ∀ cmd ∈ front, cmd.isClear = false) :
    ∃ denied later, Recovery d key r st front back denied later := by
  obtain ⟨c, m⟩ := r
  obtain ⟨hcache, hload⟩ := h
  dsimp only at hcache hload hdelete
  subst hcache
  obtain ⟨denied, later, c, m', hserial, hlength, hdenied, herrors, hheld, hloads⟩ :=
    hload.serial_clear hdelete hfront back
  obtain ⟨hanswers, hstep, hloadsAt⟩ :=
    answers_step d key ⟨⟨none, true⟩, m⟩ (by rw [hst]; simp : st.commands ≠ [])
  rw [hst] at hanswers hstep hloadsAt
  rw [hserial] at hanswers hstep
  refine ⟨denied, later, hanswers, hlength, hdenied, herrors, ?_⟩
  intro steps hsteps q a
  have hq : q.cache.held = some ((back.zip later).foldl (stand d) d.blank) :=
    (congrArg (fun q => q.cache.held) hstep).trans hheld
  obtain ⟨hheld', -, herrors'⟩ := held_run d key hq hsteps
  rw [← List.foldl_append] at hheld'
  refine ⟨?_, herrors', ?_⟩
  · simp only [step, Cache.fetch_of_held d key hheld', a]
  · rw [loads, loads_of_held hq hsteps, List.append_nil, hloadsAt]
    exact hloads

/-! ### Corrupt texts and refused loads -/

/-- What is to be said of a cache that is stuck when a command deletes the document. -/
def Recovers (d : DocumentType α) (key : DocumentKey) (r : CacheRun α) : Prop :=
  r.memory.refused .delete = false → ∀ (st : CacheStep α) (front back : List (Command α)),
    st.commands = front ++ .clear :: back → (∀ cmd ∈ front, cmd.isClear = false) →
    ∃ denied later, Recovery d key r st front back denied later

/-- There is a document in memory if the writer is gone. -/
theorem held_or_writing_step {r : CacheRun α} (h : r.cache.held.isSome ∨ r.cache.writing = true)
    (st : CacheStep α) :
    (r.step d key st).2.cache.held.isSome ∨ (r.step d key st).2.cache.writing = true := by
  cases st with
  | read | prime => exact (Cache.fetches_fetch d key r.cache r.memory).held_or_writing h
  | write cmd => exact (Cache.writes_write d key cmd r.cache r.memory).held_or_writing h
  | batch cmds awaited =>
      rw [step_batch]
      exact Cache.serial_keeps (P := fun c _ => c.held.isSome ∨ c.writing = true)
        (fun _ _ _ _ _ _ _ hwrites h => hwrites.held_or_writing h) h
  | refuse | payload | setPayload | counts => exact h
  | restart => exact (Cache.fetches_fetch d key ⟨none, true⟩ r.memory).held_or_writing (.inr rfl)

theorem held_or_writing_run {steps : List (CacheStep α)} :
    ∀ {r : CacheRun α}, (r.cache.held.isSome ∨ r.cache.writing = true) →
      ((r.run d key steps).2.cache.held.isSome ∨ (r.run d key steps).2.cache.writing = true) := by
  induction steps with
  | nil =>
      intro r h
      exact h
  | cons st steps ih =>
      intro r h
      rw [run_cons]
      exact ih (held_or_writing_step h st)

/-- A cache without a document has its writer, whatever was done to it. -/
theorem cache_eq_of_held_none {m : Memory} {steps : List (CacheStep α)}
    (h : ((start d key m).run d key steps).2.cache.held = none) :
    ((start d key m).run d key steps).2.cache = ⟨none, true⟩ := by
  have hstart := (Cache.fetches_fetch d key ⟨none, true⟩ m).held_or_writing (.inr rfl)
  have hrun : ((start d key m).run d key steps).2.cache.held.isSome ∨
      ((start d key m).run d key steps).2.cache.writing = true := held_or_writing_run hstart
  rw [h] at hrun
  obtain hrun | hrun := hrun
  · cases hrun
  · generalize ((start d key m).run d key steps).2.cache = c at h hrun
    obtain ⟨held, writing⟩ := c
    dsimp only at h hrun
    rw [h, hrun]

/-- **A document that cannot be loaded is not overwritten**: neither a text that stands for none, by a new
cache over it, nor any text at all while loads fail and no document is in memory.  Reads and changes are
denied, also after commands that could not delete the document, and the first command that deletes it brings
the cache back without a load. -/
theorem unloadable_not_overwritten (d : DocumentType α) (key : DocumentKey) (m : Memory) :
    (∀ (f : Failure) (steps : List (CacheStep α)), Cache.decode d key (m.payload key) = .error f →
      (∀ st ∈ steps, st.leavesText = true) →
      Throughout d key (fun q st => st.clears = true → q.memory.refused .delete = true)
        (start d key m) steps →
      let r := ((start d key m).run d key steps).2
      (Cache.fetch d key ⟨none, true⟩ m).1.isOk = false ∧ Untouched d key (start d key m) steps ∧
      r.memory.payload key = m.payload key ∧ r.memory.attempts .store = m.attempts .store ∧
      Recovers d key r) ∧
    ∀ before steps : List (CacheStep α),
      let r := ((start d key m).run d key before).2
      r.cache.held = none → (∀ st ∈ steps, st.leavesText = true) →
      Throughout d key (fun q st => Cache.LoadFails d key q.memory ∧
        (st.clears = true → q.memory.refused .delete = true)) r steps →
      Untouched d key r steps ∧
      (Cache.LoadFails d key (r.run d key steps).2.memory → Recovers d key (r.run d key steps).2) := by
  refine ⟨?_, ?_⟩
  · intro f steps hdecode hsteps hclears r
    obtain ⟨f', hfetch⟩ := Cache.LoadFails.fetches (.inr ⟨f, hdecode⟩ : Cache.LoadFails d key m) true
    have hstart : start d key m = ⟨⟨none, true⟩, m.count .load⟩ := by
      simp only [start, Cache.create, hfetch.eq]
    have hcache : (start d key m).cache = ⟨none, true⟩ := by rw [hstart]
    have hpayload : (start d key m).memory.payload key = m.payload key := by rw [hstart]; rfl
    have hstore : (start d key m).memory.attempts .store = m.attempts .store := by rw [hstart]; rfl
    rw [← hpayload] at hdecode
    have huntouched := untouched_run hcache hsteps (throughout_loadFails hcache hdecode hsteps hclears)
    refine ⟨by rw [hfetch.eq]; rfl, huntouched, huntouched.payload_eq.trans hpayload,
      huntouched.attempts_store.trans hstore, ?_⟩
    intro hdelete st front back
    rw [← huntouched.payload_eq] at hdecode
    exact recovery_step ⟨huntouched.cache_eq, .inr ⟨f, hdecode⟩⟩ hdelete
  · intro before steps r hheld hsteps hfails
    have huntouched := untouched_run (cache_eq_of_held_none hheld) hsteps hfails
    refine ⟨huntouched, ?_⟩
    intro hload hdelete st front back
    exact recovery_step ⟨huntouched.cache_eq, hload⟩ hdelete

/-- A corrupt text, which a change does not overwrite and which cannot be deleted at first; and a store that
refuses loads. -/
theorem unloadable_not_overwritten_corrupt :
    let key : DocumentKey := ⟨"numbers", "p"⟩
    let m := Memory.blank.setPayload key (some "[1,")
    let push (n : Int64) : Command (List Int64) := .update (NumberChange.push n).apply
    let steps : List (CacheStep (List Int64)) :=
      [.write (push 1), .refuse .delete true, .write .clear, .read, .restart, .refuse .delete false]
    let r := ((start numbersDocument key m).run numbersDocument key steps).2
    let refusing := start numbersDocument key (Memory.blank.refuse .load true)
    (Cache.decode numbersDocument key (m.payload key)).isOk = false ∧
    r.memory.payload key = some "[1," ∧ r.memory.attempts .store = 0 ∧
    (∃ denied later, Recovery numbersDocument key r (.batch [push 2, .clear, push 3] [1]) [push 2] [push 3]
      denied later) ∧
    Untouched numbersDocument key refusing [.write (push 1), .read] := by
  intro key m push steps r refusing
  have hcorrupt : (Cache.decode numbersDocument key (m.payload key)).isOk = false := by decide +kernel
  obtain ⟨f, hdecode⟩ : ∃ f, Cache.decode numbersDocument key (m.payload key) = .error f := by
    cases hdecode : Cache.decode numbersDocument key (m.payload key) with
    | ok ns =>
        rw [hdecode] at hcorrupt
        cases hcorrupt
    | error f => exact ⟨f, rfl⟩
  have hsteps : ∀ st ∈ steps, st.leavesText = true := by simp [steps, CacheStep.leavesText]
  have hclears : Throughout numbersDocument key
      (fun q st => st.clears = true → q.memory.refused .delete = true)
      (start numbersDocument key m) steps := by
    simp only [steps, Throughout]
    refine ⟨?_, ?_, fun _ => rfl, ?_, ?_, ?_, trivial⟩ <;> exact fun h => by cases h
  obtain ⟨-, -, hpayload, hstore, hrecovers⟩ :=
    (unloadable_not_overwritten numbersDocument key m).1 f steps hdecode hsteps hclears
  have hpayload' := hpayload.trans (Memory.payload_setPayload_self _ _ _)
  refine ⟨hcorrupt, hpayload', hstore, hrecovers rfl _ [push 2] [push 3] rfl ?_, ?_⟩
  · simp [push, Command.isClear]
  · refine ((unloadable_not_overwritten numbersDocument key _).2 [] _ rfl ?_ ?_).1
    · simp [CacheStep.leavesText]
    · simp only [Throughout]
      refine ⟨⟨.inl rfl, ?_⟩, ⟨.inl rfl, ?_⟩, trivial⟩ <;> exact fun h => by cases h

end CacheRun

end StudyTime
