/-
**A document in memory is there to stay.**

A document comes into memory when it is loaded or when a command succeeds, and it goes only with its cache.
While it is there no load is attempted, so nothing that is answered depends on the text in the store or on
the switch that refuses loads: caches that hold the same document go in step whatever is done to the text
behind their backs, and the next command that succeeds overwrites it.  A load is attempted when a cache is
made and when a read or a change finds no document, and only one of these loads can yield a document.

Main definitions:

* `CacheRun.writings`, `stand` — the commands of a run with their answers, and what they make of a document;
* `CacheRun.InStep` — caches that hold the same document over stores with other texts;
* `CacheRun.loads` — the outcomes of the loads that a run attempts.

Main results:

* `CacheRun.held_run`, `CacheRun.payload_run` — **what is in memory after a run**, and in the store;
* `CacheRun.InStep.heard_filter` — **meddling with the store is not noticed**;
* `CacheRun.loads_run` — how many loads are attempted, and how many of them succeed;
* `CacheRun.held_to_stay` — all of this about the lifetime of a cache.
-/

import StudyTime.Proofs.Cache.Outcomes

set_option relaxedAutoImplicit false
set_option autoImplicit false

namespace StudyTime

/-! ### Commands with their answers -/

/-- Whether it says that the document could not be loaded. -/
def CacheError.isLoad : CacheError → Bool
  | .load _ _ => true
  | _ => false

/-- The errors of which the answer consists. -/
def CacheAnswer.errors {α : Type} : CacheAnswer α → List CacheError
  | .value (.error e) => [e]
  | .primed (.error e) => [e]
  | .written (.error e) => [e]
  | .many rs => rs.filterMap fun
    | some (.error e) => some e
    | _ => none
  | _ => []

namespace CacheStep

variable {α : Type}

/-- The commands that are issued. -/
def commands : CacheStep α → List (Command α)
  | .write cmd => [cmd]
  | .batch cmds _ => cmds
  | _ => []

/-- Whether a new cache takes the place of the old one. -/
def replaces : CacheStep α → Bool
  | .restart => true
  | _ => false

/-- Whether it is asked of the cache and not of its store. -/
def asks : CacheStep α → Bool
  | .read | .prime | .write _ | .batch _ _ => true
  | _ => false

/-- Whether it touches the text or the switch for loads behind the back of the cache. -/
def meddles : CacheStep α → Bool
  | .setPayload _ => true
  | .refuse op _ => op = .load
  | _ => false

/-- What touches the text or the switch is not asked of the cache. -/
theorem asks_of_meddles {st : CacheStep α} (h : st.meddles = true) : st.asks = false := by
  cases st with
  | refuse | setPayload => rfl
  | read | prime | write | batch | payload | counts | restart => cases h

end CacheStep

/-- A document after a command, given its answer: what fails leaves it alone. -/
def stand {α : Type} (d : DocumentType α) (a : α) (w : Command α × Except CacheError (Reply α)) : α :=
  match w.2, w.1 with
  | .error _, _ => a
  | .ok _, .clear => d.blank
  | .ok _, .update change => (change a).getD a

/-- A document with its text after a command, given its answer: what succeeds puts another text in the
place of this one, which comes from the document alone. -/
def overwrite {α : Type} (d : DocumentType α) (p : α × Option String)
    (w : Command α × Except CacheError (Reply α)) : α × Option String :=
  match w.2, w.1 with
  | .error _, _ => p
  | .ok _, .clear => (d.blank, none)
  | .ok _, .update change => ((change p.1).getD p.1, d.encode ((change p.1).getD p.1))

@[simp] theorem overwrite_fst {α : Type} (d : DocumentType α) (p : α × Option String)
    (w : Command α × Except CacheError (Reply α)) : (overwrite d p w).1 = stand d p.1 w := by
  unfold overwrite stand
  split <;> rfl

theorem foldl_overwrite_fst {α : Type} (d : DocumentType α)
    (ws : List (Command α × Except CacheError (Reply α))) (p : α × Option String) :
    (ws.foldl (overwrite d) p).1 = ws.foldl (stand d) p.1 := by
  induction ws generalizing p with
  | nil => rfl
  | cons w ws ih => rw [List.foldl_cons, List.foldl_cons, ih, overwrite_fst]

/-! ### A document in memory -/

namespace Cache

variable {α : Type} {d : DocumentType α} {key : DocumentKey} {c c' : Cache α} {m m' : Memory} {a : α}

/-- A document in memory is read. -/
theorem fetches_of_held (h : c.held = some a) {v : Except CacheError α}
    (hfetch : Fetches d key c m (v, c', m')) : v = .ok a ∧ c' = c ∧ m' = m := by
  cases hfetch with
  | held hheld =>
      rw [h] at hheld
      cases hheld
      exact ⟨rfl, rfl, rfl⟩
  | refused hheld | undecoded hheld | loaded hheld =>
      rw [h] at hheld
      cases hheld

theorem fetch_of_held (d : DocumentType α) (key : DocumentKey) (h : c.held = some a) (m : Memory) :
    fetch d key c m = (.ok a, c, m) :=
  (Fetches.held h).eq

/-- A command is performed on the document in memory. -/
theorem Writes.of_held (h : c.held = some a) {cmd : Command α} {v : Except CacheError (Reply α)}
    (hwrite : Writes d key c m cmd (v, c', m')) :
    c'.held = some (stand d a (cmd, v)) ∧
      m'.payload key = (overwrite d (a, m.payload key) (cmd, v)).2 ∧
      m'.attempts .load = m.attempts .load ∧ ∀ e, v = .error e → e.isLoad = false := by
  have hload : m'.attempts .load = m.attempts .load := by
    rw [hwrite.attempts_load]
    cases cmd <;> simp [loadsFor, h]
  suffices hways : c'.held = some (stand d a (cmd, v)) ∧
      m'.payload key = (overwrite d (a, m.payload key) (cmd, v)).2 ∧
      ∀ e, v = .error e → e.isLoad = false from ⟨hways.1, hways.2.1, hload, hways.2.2⟩
  cases hwrite with
  | closed | undeleted => exact ⟨h, rfl, fun e he => by cases he; rfl⟩
  | cleared => exact ⟨rfl, by simp [overwrite], fun e he => by cases he⟩
  | unloaded _ hfetch => cases (fetches_of_held h hfetch).1
  | aborted _ hfetch | unwritable _ hfetch | unstored _ hfetch =>
      obtain ⟨-, rfl, rfl⟩ := fetches_of_held h hfetch
      exact ⟨h, rfl, fun e he => by cases he; rfl⟩
  | committed _ hfetch hchange hencode =>
      obtain ⟨hok, rfl, rfl⟩ := fetches_of_held h hfetch
      cases hok
      refine ⟨?_, ?_, fun e he => by cases he⟩
      · simp only [stand, hchange, Option.getD_some]
      · simp [overwrite, hchange, hencode]

/-- Commands one by one are performed on the document in memory. -/
theorem held_serial {cmds : List (Command α)} :
    ∀ {c c' : Cache α} {m m' : Memory} {a : α} {vs}, c.held = some a →
      serial d key cmds c m = (vs, c', m') →
      c'.held = some ((cmds.zip vs).foldl (stand d) a) ∧
        m'.payload key = ((cmds.zip vs).foldl (overwrite d) (a, m.payload key)).2 ∧
        m'.attempts .load = m.attempts .load ∧ ∀ v ∈ vs, ∀ e, v = .error e → e.isLoad = false := by
  induction cmds with
  | nil =>
      intro c c' m m' a vs h hout
      cases hout
      exact ⟨h, rfl, rfl, fun v hv => by cases hv⟩
  | cons cmd cmds ih =>
      intro c c' m m' a vs h hout
      have hwrite := writes_write d key cmd c m
      generalize hout₁ : write d key cmd c m = out at hwrite
      obtain ⟨v, c₁, m₁⟩ := out
      rw [serial_cons cmd cmds hout₁] at hout
      generalize hout₂ : serial d key cmds c₁ m₁ = out at hout
      obtain ⟨vs, c₂, m₂⟩ := out
      cases hout
      obtain ⟨hheld, htext, hattempts, herror⟩ := hwrite.of_held h
      obtain ⟨hheld', htext', hattempts', herrors⟩ := ih hheld hout₂
      refine ⟨hheld', ?_, hattempts'.trans hattempts, ?_⟩
      · have hpair : (stand d a (cmd, v), m₁.payload key) =
            overwrite d (a, m.payload key) (cmd, v) :=
          Prod.ext (overwrite_fst d (a, m.payload key) (cmd, v)).symm htext
        rw [htext', hpair]
        rfl
      · intro v' hv'
        rcases List.mem_cons.1 hv' with rfl | hv'
        · exact herror
        · exact herrors v' hv'

end Cache

namespace CacheRun

variable {α : Type} {d : DocumentType α} {key : DocumentKey}

/-- The commands of a run with their answers, those included for which nobody waits. -/
def writings (d : DocumentType α) (key : DocumentKey) :
    CacheRun α → List (CacheStep α) → List (Command α × Except CacheError (Reply α))
  | _, [] => []
  | r, st :: steps =>
    st.commands.zip (r.cache.serial d key st.commands r.memory).1 ++
      writings d key (r.step d key st).2 steps

/-- The errors of a batch are among those of its commands. -/
theorem mem_errors_many {vs : List (Except CacheError (Reply α))} {awaited : List Nat} {e : CacheError}
    (he : e ∈ (CacheAnswer.many (vs.mapIdx fun n v => if n ∈ awaited then some v else none)).errors) :
    .error e ∈ vs := by
  obtain ⟨o, ho, herror⟩ := List.mem_filterMap.1 he
  obtain ⟨n, hn, rfl⟩ := List.mem_mapIdx.1 ho
  split at herror
  next e' hmask =>
    cases herror
    split at hmask
    · rw [← Option.some.inj hmask]
      exact List.getElem_mem hn
    · cases hmask
  next => cases herror

/-- A step other than a new cache is taken with the document in memory. -/
theorem held_step (d : DocumentType α) (key : DocumentKey) {r : CacheRun α} {a : α}
    (h : r.cache.held = some a) {st : CacheStep α} (hst : st.replaces = false) :
    (r.step d key st).2.cache.held = some ((writings d key r [st]).foldl (stand d) a) ∧
      (st.leavesText = true → (r.step d key st).2.memory.payload key =
        ((writings d key r [st]).foldl (overwrite d) (a, r.memory.payload key)).2) ∧
      (r.step d key st).2.memory.attempts .load = r.memory.attempts .load ∧
      ∀ e ∈ (r.step d key st).1.errors, e.isLoad = false := by
  cases st with
  | read | prime =>
      rw [step, Cache.fetch_of_held d key h]
      exact ⟨h, fun _ => rfl, rfl, fun e he => by cases he⟩
  | write cmd =>
      have hwrite := Cache.writes_write d key cmd r.cache r.memory
      simp only [writings, CacheStep.commands, Cache.serial, step]
      generalize Cache.write d key cmd r.cache r.memory = out at hwrite
      obtain ⟨v, c, m⟩ := out
      obtain ⟨hheld, htext, hattempts, herror⟩ := hwrite.of_held h
      refine ⟨hheld, fun _ => htext, hattempts, ?_⟩
      intro e he
      cases v with
      | ok reply => cases he
      | error e' =>
          cases List.mem_singleton.1 he
          exact herror e rfl
  | batch cmds awaited =>
      rw [step_batch]
      simp only [writings, CacheStep.commands, List.append_nil]
      generalize hout : r.cache.serial d key cmds r.memory = out
      obtain ⟨vs, c, m⟩ := out
      obtain ⟨hheld, htext, hattempts, herrors⟩ := Cache.held_serial h hout
      exact ⟨hheld, fun _ => htext, hattempts, fun e he => herrors _ (mem_errors_many he) e rfl⟩
  | refuse op on => exact ⟨h, fun _ => rfl, rfl, fun e he => by cases he⟩
  | payload => exact ⟨h, fun _ => rfl, rfl, fun e he => by cases he⟩
  | setPayload text =>
      refine ⟨h, (fun hst' => by cases hst'), ?_, fun e he => by cases he⟩
      exact congrFun (Memory.attempts_setPayload r.memory key text) .load
  | counts => exact ⟨h, fun _ => rfl, rfl, fun e he => by cases he⟩
  | restart => cases hst

theorem writings_cons (r : CacheRun α) (st : CacheStep α) (steps : List (CacheStep α)) :
    writings d key r (st :: steps) =
      writings d key r [st] ++ writings d key (r.step d key st).2 steps := by
  simp only [writings, List.append_nil]

/-- **A document in memory stays there until a new cache is made**: it is what the commands make of it, and
no load is attempted on the way. -/
theorem held_run (d : DocumentType α) (key : DocumentKey) {steps : List (CacheStep α)} :
    ∀ {r : CacheRun α} {a : α}, r.cache.held = some a → (∀ st ∈ steps, st.replaces = false) →
      (r.run d key steps).2.cache.held = some ((writings d key r steps).foldl (stand d) a) ∧
      (r.run d key steps).2.memory.attempts .load = r.memory.attempts .load ∧
      ∀ v ∈ (r.run d key steps).1, ∀ e ∈ v.errors, e.isLoad = false := by
  induction steps with
  | nil =>
      intro r a h _
      exact ⟨h, rfl, fun v hv => by cases hv⟩
  | cons st steps ih =>
      intro r a h hsteps
      obtain ⟨hst, hrest⟩ := List.forall_mem_cons.1 hsteps
      obtain ⟨hheld, -, hattempts, herrors⟩ := held_step d key h hst
      obtain ⟨hheld', hattempts', herrors'⟩ := ih hheld hrest
      rw [run_cons, writings_cons, List.foldl_append]
      refine ⟨hheld', hattempts'.trans hattempts, ?_⟩
      intro v hv
      rcases List.mem_cons.1 hv with rfl | hv
      · exact herrors
      · exact herrors' v hv

/-- The text is what the commands make of it, unless it is changed behind the back of the cache. -/
theorem payload_run {steps : List (CacheStep α)} :
    ∀ {r : CacheRun α} {a : α}, r.cache.held = some a →
      (∀ st ∈ steps, st.replaces = false ∧ st.leavesText = true) →
      (r.run d key steps).2.memory.payload key =
        ((writings d key r steps).foldl (overwrite d) (a, r.memory.payload key)).2 := by
  induction steps with
  | nil =>
      intro r a _ _
      rfl
  | cons st steps ih =>
      intro r a h hsteps
      obtain ⟨⟨hst, hst'⟩, hrest⟩ := List.forall_mem_cons.1 hsteps
      obtain ⟨hheld, htext, -⟩ := held_step d key h hst
      have hpayload := ih hheld hrest
      have hpair : ((writings d key r [st]).foldl (stand d) a, (r.step d key st).2.memory.payload key) =
          (writings d key r [st]).foldl (overwrite d) (a, r.memory.payload key) :=
        Prod.ext (foldl_overwrite_fst d _ (a, r.memory.payload key)).symm (htext hst')
      rw [run_cons, writings_cons r st steps, List.foldl_append, hpayload, hpair]

/-! ### Meddling with the store -/

/-- Caches that hold the same document, over stores that agree on all but the texts, the counts and the
switch that refuses loads. -/
structure InStep (r r' : CacheRun α) : Prop where
  cache_eq : r'.cache = r.cache
  held : r.cache.held.isSome
  refused_eq : ∀ op, op ≠ .load → r'.memory.refused op = r.memory.refused op

namespace InStep

variable {r r' : CacheRun α}

theorem refl (h : r.cache.held.isSome) : InStep r r := ⟨rfl, h, fun _ _ => rfl⟩

theorem symm (h : InStep r r') : InStep r' r := by
  refine ⟨h.cache_eq.symm, ?_, fun op hop => (h.refused_eq op hop).symm⟩
  rw [h.cache_eq]
  exact h.held

/-- **A command** gets the same answer, and the caches remain in step. -/
theorem writes (h : InStep r r') {cmd : Command α} {v : Except CacheError (Reply α)} {c : Cache α}
    {m : Memory} (hout : Cache.Writes d key r.cache r.memory cmd (v, c, m)) :
    ∃ m', Cache.Writes d key r'.cache r'.memory cmd (v, c, m') ∧ InStep ⟨c, m⟩ ⟨c, m'⟩ := by
  obtain ⟨a, ha⟩ := Option.isSome_iff_exists.1 h.held
  -- no switch is changed, so whatever is done to the other store its cache is in step
  suffices hsame : ∃ m', Cache.Writes d key r.cache r'.memory cmd (v, c, m') by
    obtain ⟨m', hout'⟩ := hsame
    rw [← h.cache_eq] at hout'
    refine ⟨m', hout', rfl, ?_, ?_⟩
    · rw [(hout.of_held ha).1, Option.isSome_some]
    · rw [hout.refused_eq, hout'.refused_eq]
      exact h.refused_eq
  have hfetch' : Cache.Fetches d key r.cache r'.memory (.ok a, r.cache, r'.memory) := .held ha
  cases hout with
  | closed _ hc => exact ⟨_, .closed cmd hc⟩
  | undeleted hc hdelete =>
      rw [← h.refused_eq .delete (by decide)] at hdelete
      exact ⟨_, .undeleted hc hdelete⟩
  | cleared hc hdelete =>
      rw [← h.refused_eq .delete (by decide)] at hdelete
      exact ⟨_, .cleared hc hdelete⟩
  | unloaded _ hfetch => cases (Cache.fetches_of_held ha hfetch).1
  | aborted hc hfetch hchange =>
      obtain ⟨hok, rfl, rfl⟩ := Cache.fetches_of_held ha hfetch
      cases hok
      exact ⟨_, .aborted hc hfetch' hchange⟩
  | unwritable hc hfetch hchange hencode =>
      obtain ⟨hok, rfl, rfl⟩ := Cache.fetches_of_held ha hfetch
      cases hok
      exact ⟨_, .unwritable hc hfetch' hchange hencode⟩
  | unstored hc hfetch hchange hencode hstore =>
      obtain ⟨hok, rfl, rfl⟩ := Cache.fetches_of_held ha hfetch
      cases hok
      rw [← h.refused_eq .store (by decide)] at hstore
      exact ⟨_, .unstored hc hfetch' hchange hencode hstore⟩
  | committed hc hfetch hchange hencode hstore =>
      obtain ⟨hok, rfl, rfl⟩ := Cache.fetches_of_held ha hfetch
      cases hok
      rw [← h.refused_eq .store (by decide)] at hstore
      exact ⟨_, .committed hc hfetch' hchange hencode hstore⟩

/-- **Commands one by one** get the same answers, and the caches remain in step. -/
theorem serial {cmds : List (Command α)} :
    ∀ {r r' : CacheRun α}, InStep r r' →
      (r'.cache.serial d key cmds r'.memory).1 = (r.cache.serial d key cmds r.memory).1 ∧
      InStep
        ⟨(r.cache.serial d key cmds r.memory).2.1, (r.cache.serial d key cmds r.memory).2.2⟩
        ⟨(r'.cache.serial d key cmds r'.memory).2.1, (r'.cache.serial d key cmds r'.memory).2.2⟩ := by
  induction cmds with
  | nil =>
      intro r r' h
      exact ⟨rfl, h⟩
  | cons cmd cmds ih =>
      intro r r' h
      have hout := Cache.writes_write d key cmd r.cache r.memory
      generalize hwrite : Cache.write d key cmd r.cache r.memory = out at hout
      obtain ⟨v, c, m⟩ := out
      obtain ⟨m', hout', hstep⟩ := h.writes hout
      rw [Cache.serial_cons cmd cmds hwrite, Cache.serial_cons cmd cmds hout'.eq]
      obtain ⟨hanswers, hfinal⟩ := ih hstep
      dsimp only at hanswers hfinal ⊢
      exact ⟨by rw [hanswers], hfinal⟩

/-- **What is asked of the caches** gets the same answer, and they remain in step. -/
theorem step (d : DocumentType α) (key : DocumentKey) (h : InStep r r') {st : CacheStep α}
    (hreplaces : st.replaces = false) (hmeddles : st.meddles = false) :
    (st.asks = true → (r'.step d key st).1 = (r.step d key st).1) ∧
    InStep (r.step d key st).2 (r'.step d key st).2 := by
  obtain ⟨a, ha⟩ := Option.isSome_iff_exists.1 h.held
  cases st with
  | read | prime =>
      rw [CacheRun.step, CacheRun.step, h.cache_eq, Cache.fetch_of_held d key ha, Cache.fetch_of_held d key ha]
      exact ⟨fun _ => rfl, rfl, h.held, h.refused_eq⟩
  | write cmd =>
      have hout := Cache.writes_write d key cmd r.cache r.memory
      obtain ⟨m', hout', hstep⟩ := h.writes hout
      rw [CacheRun.step, CacheRun.step, hout'.eq]
      exact ⟨fun _ => rfl, hstep⟩
  | batch cmds awaited =>
      rw [step_batch, step_batch]
      obtain ⟨hanswers, hstep⟩ := h.serial
      rw [hanswers]
      exact ⟨fun _ => rfl, hstep⟩
  | refuse op on =>
      refine ⟨(fun hasks => by cases hasks), h.cache_eq, h.held, ?_⟩
      intro op' hop'
      simp only [CacheRun.step, Memory.refused_refuse, h.refused_eq op' hop']
  | payload => exact ⟨(fun hasks => by cases hasks), h⟩
  | setPayload text => cases hmeddles
  | counts => exact ⟨(fun hasks => by cases hasks), h⟩
  | restart => cases hreplaces

/-- Meddling with one of the stores leaves the caches in step. -/
theorem meddle (d : DocumentType α) (key : DocumentKey) (h : InStep r r') {st : CacheStep α}
    (hst : st.meddles = true) :
    InStep (r.step d key st).2 r' := by
  cases st with
  | refuse op on =>
      have hop : op = .load := of_decide_eq_true hst
      refine ⟨h.cache_eq, h.held, ?_⟩
      intro op' hop'
      rw [h.refused_eq op' hop']
      simp only [CacheRun.step, Memory.refused_refuse, hop, if_neg hop']
  | setPayload text =>
      refine ⟨h.cache_eq, h.held, ?_⟩
      intro op' hop'
      rw [h.refused_eq op' hop']
      simp only [CacheRun.step, Memory.refused_setPayload]
  | read | prime | write cmd | batch cmds awaited | payload | counts | restart => cases hst

end InStep

/-- The answers of the cache; those of its store are left out. -/
def heard (d : DocumentType α) (key : DocumentKey) :
    CacheRun α → List (CacheStep α) → List (CacheAnswer α)
  | _, [] => []
  | r, st :: steps =>
    (if st.asks then [(r.step d key st).1] else []) ++ heard d key (r.step d key st).2 steps

/-- Without the meddling the same is heard, and the same document is in memory in the end. -/
theorem InStep.heard_filter (d : DocumentType α) (key : DocumentKey) {steps : List (CacheStep α)} :
    ∀ {r r' : CacheRun α}, InStep r r' → (∀ st ∈ steps, st.replaces = false) →
      heard d key r steps = heard d key r' (steps.filter fun st => !st.meddles) ∧
      (r'.run d key (steps.filter fun st => !st.meddles)).2.cache = (r.run d key steps).2.cache := by
  induction steps with
  | nil =>
      intro r r' h _
      exact ⟨rfl, h.cache_eq⟩
  | cons st steps ih =>
      intro r r' h hsteps
      obtain ⟨hreplaces, hrest⟩ := List.forall_mem_cons.1 hsteps
      cases hst : st.meddles with
      | true =>
          obtain ⟨hheard, hcache⟩ := ih (h.meddle d key hst) hrest
          have hasks : st.asks = false := CacheStep.asks_of_meddles hst
          rw [List.filter_cons_of_neg (by simp [hst]), heard, hasks]
          exact ⟨hheard, hcache⟩
      | false =>
          obtain ⟨hanswer, hstep⟩ := h.step d key hreplaces hst
          obtain ⟨hheard, hcache⟩ := ih hstep hrest
          rw [List.filter_cons_of_pos (by simp [hst]), heard, heard, hheard]
          refine ⟨?_, hcache⟩
          cases hasks : st.asks with
          | true => rw [hanswer hasks]
          | false => rfl

end CacheRun

/-! ### Loads -/

namespace Cache

variable {α : Type} {d : DocumentType α} {key : DocumentKey} {c c' : Cache α} {m m' : Memory}

/-- The outcomes of the loads that the writer attempts for commands one by one. -/
def loads (d : DocumentType α) (key : DocumentKey) :
    List (Command α) → Cache α → Memory → List (Except CacheError α)
  | [], _, _ => []
  | cmd :: cmds, c, m =>
    let (_, c', m') := write d key cmd c m
    (if c.loadsFor cmd then [(fetch d key c m).1] else []) ++ loads d key cmds c' m'

/-- One as long as there is no document in memory. -/
def vacancy (c : Cache α) : Nat := if c.held.isNone then 1 else 0

/-- A load that is attempted for a read is counted, and if it yields a document this stays in memory. -/
theorem Fetches.vacancy_le {v : Except CacheError α} (h : Fetches d key c m (v, c', m'))
    (hc : c.held = none) :
    m'.attempts .load = m.attempts .load + 1 ∧ [v].countP Except.isOk + c'.vacancy ≤ 1 := by
  refine ⟨by simp [h.attempts_eq, hc, Memory.attempts_count], ?_⟩
  cases h with
  | held hheld =>
      rw [hc] at hheld
      cases hheld
  | refused | undecoded => simp [vacancy, hc, Except.isOk, Except.toBool]
  | loaded => simp [vacancy, Except.isOk, Except.toBool]

/-- A load that is attempted for a command is counted, and if it yields a document this stays in memory. -/
theorem Writes.vacancy_le {cmd : Command α} {v : Except CacheError (Reply α)}
    (h : Writes d key c m cmd (v, c', m')) (hload : c.loadsFor cmd = true) :
    m'.attempts .load = m.attempts .load + 1 ∧
      [(fetch d key c m).1].countP Except.isOk + c'.vacancy ≤ 1 := by
  refine ⟨by rw [h.attempts_load, hload]; rfl, ?_⟩
  cases h with
  | closed _ hc => cases cmd <;> simp [loadsFor, hc] at hload
  | undeleted | cleared => cases hload
  | unloaded hc hfetch | aborted hc hfetch | unwritable hc hfetch | unstored hc hfetch =>
      rw [hfetch.eq]
      exact (hfetch.vacancy_le (by simpa [loadsFor, hc] using hload)).2
  | committed _ hfetch =>
      rw [hfetch.eq]
      simp [vacancy, Except.isOk, Except.toBool]

/-- The document goes out of memory at no command. -/
theorem Writes.vacancy_mono {cmd : Command α} {v : Except CacheError (Reply α)}
    (h : Writes d key c m cmd (v, c', m')) : c'.vacancy ≤ c.vacancy := by
  cases hc : c.held with
  | none => simp only [vacancy, hc, Option.isNone_none, if_true]; split <;> omega
  | some a => simp [vacancy, (h.of_held hc).1]

/-- The loads for commands one by one are counted, and one at most yields a document. -/
theorem loads_serial (d : DocumentType α) (key : DocumentKey) (cmds : List (Command α)) :
    ∀ (c : Cache α) (m : Memory),
      (serial d key cmds c m).2.2.attempts .load = m.attempts .load + (loads d key cmds c m).length ∧
      (loads d key cmds c m).countP Except.isOk + (serial d key cmds c m).2.1.vacancy ≤ c.vacancy := by
  induction cmds with
  | nil =>
      intro c m
      simp [loads, serial]
  | cons cmd cmds ih =>
      intro c m
      have hwrite := writes_write d key cmd c m
      generalize hout : write d key cmd c m = out at hwrite
      obtain ⟨v, c', m'⟩ := out
      obtain ⟨hattempts, hcount⟩ := ih c' m'
      simp only [serial_cons cmd cmds hout, loads, hout, List.countP_append, List.length_append]
      cases hload : c.loadsFor cmd with
      | true =>
          obtain ⟨hattempts', hcount'⟩ := hwrite.vacancy_le hload
          have hvacancy : c.vacancy = 1 := by
            cases cmd with
            | clear => cases hload
            | update change => simp_all [loadsFor, vacancy]
          simp only [if_true, List.length_singleton]
          omega
      | false =>
          have hattempts' := hwrite.attempts_load
          have hvacancy := hwrite.vacancy_mono
          simp only [hload, if_neg Bool.false_ne_true, List.countP_nil, List.length_nil] at hattempts' ⊢
          omega

theorem loads_append (cmds cmds' : List (Command α)) :
    ∀ (c : Cache α) (m : Memory), loads d key (cmds ++ cmds') c m =
      loads d key cmds c m ++
        loads d key cmds' (serial d key cmds c m).2.1 (serial d key cmds c m).2.2 := by
  induction cmds with
  | nil =>
      intro c m
      rfl
  | cons cmd cmds ih =>
      intro c m
      generalize hout : write d key cmd c m = out
      obtain ⟨v, c', m'⟩ := out
      simp only [List.cons_append, loads, hout, serial_cons cmd cmds hout, ih, List.append_assoc]

/-- No load is attempted for a document in memory. -/
theorem loads_of_held {a : α} (h : c.held = some a) (cmds : List (Command α)) :
    loads d key cmds c m = [] := by
  generalize hout : serial d key cmds c m = out
  obtain ⟨vs, c', m'⟩ := out
  obtain ⟨-, -, hattempts, -⟩ := held_serial h hout
  have hcount := (loads_serial d key cmds c m).1
  rw [hout] at hcount
  exact List.eq_nil_of_length_eq_zero (by dsimp only at hcount; omega)

end Cache

namespace CacheRun

variable {α : Type} {d : DocumentType α} {key : DocumentKey}

/-- The outcomes of the loads that a step attempts: a read attempts one if it finds no document in memory,
a change if the writer is there and finds none, and a new cache starts with one. -/
def loadsAt (d : DocumentType α) (key : DocumentKey) (r : CacheRun α) :
    CacheStep α → List (Except CacheError α)
  | .read | .prime => if r.cache.held.isNone then [(r.cache.fetch d key r.memory).1] else []
  | .restart => [(Cache.fetch d key ⟨none, true⟩ r.memory).1]
  | st => r.cache.loads d key st.commands r.memory

/-- The outcomes of the loads that are attempted in the course of the steps. -/
def loads (d : DocumentType α) (key : DocumentKey) :
    CacheRun α → List (CacheStep α) → List (Except CacheError α)
  | _, [] => []
  | r, st :: steps => loadsAt d key r st ++ loads d key (r.step d key st).2 steps

/-- The loads at a step are counted, and one at most yields a document. -/
theorem loadsAt_step (d : DocumentType α) (key : DocumentKey) (r : CacheRun α) {st : CacheStep α}
    (hst : st.replaces = false) :
    (r.step d key st).2.memory.attempts .load =
      r.memory.attempts .load + (loadsAt d key r st).length ∧
    (loadsAt d key r st).countP Except.isOk + (r.step d key st).2.cache.vacancy ≤ r.cache.vacancy := by
  cases st with
  | read | prime =>
      have hfetch := Cache.fetches_fetch d key r.cache r.memory
      simp only [loadsAt, step]
      generalize Cache.fetch d key r.cache r.memory = out at hfetch
      obtain ⟨v, c, m⟩ := out
      cases hheld : r.cache.held with
      | none =>
          have hvacancy : r.cache.vacancy = 1 := by simp [Cache.vacancy, hheld]
          rw [hvacancy]
          exact hfetch.vacancy_le hheld
      | some a =>
          obtain ⟨-, rfl, rfl⟩ := Cache.fetches_of_held hheld hfetch
          simp
  | write cmd =>
      have hserial := Cache.loads_serial d key [cmd] r.cache r.memory
      rw [Cache.serial_cons cmd [] rfl] at hserial
      exact hserial
  | batch cmds awaited =>
      rw [step_batch]
      exact Cache.loads_serial d key cmds r.cache r.memory
  | refuse | payload | setPayload | counts =>
      simp [loadsAt, step, CacheStep.commands, Cache.loads]
  | restart => cases hst

/-- The load with which a new cache starts is counted, and if it yields a document this stays in memory. -/
theorem loads_start (d : DocumentType α) (key : DocumentKey) (m : Memory) :
    (start d key m).memory.attempts .load = m.attempts .load + 1 ∧
    [(Cache.fetch d key ⟨none, true⟩ m).1].countP Except.isOk + (start d key m).cache.vacancy ≤ 1 := by
  have hfetch := Cache.fetches_fetch d key ⟨none, true⟩ m
  simp only [start, Cache.create]
  generalize Cache.fetch d key ⟨none, true⟩ m = out at hfetch
  exact hfetch.vacancy_le rfl

/-- **The loads of a run are counted, and one at most yields a document.** -/
theorem loads_run (d : DocumentType α) (key : DocumentKey) {steps : List (CacheStep α)} :
    ∀ r : CacheRun α, (∀ st ∈ steps, st.replaces = false) →
      (r.run d key steps).2.memory.attempts .load =
        r.memory.attempts .load + (loads d key r steps).length ∧
      (loads d key r steps).countP Except.isOk + (r.run d key steps).2.cache.vacancy ≤
        r.cache.vacancy := by
  induction steps with
  | nil =>
      intro r _
      simp [loads, run]
  | cons st steps ih =>
      intro r hsteps
      obtain ⟨hst, hrest⟩ := List.forall_mem_cons.1 hsteps
      obtain ⟨hattempts, hcount⟩ := loadsAt_step d key r hst
      obtain ⟨hattempts', hcount'⟩ := ih (r.step d key st).2 hrest
      rw [run_cons, loads, List.length_append, List.countP_append]
      dsimp only
      omega

/-- No load is attempted for a document in memory. -/
theorem loads_of_held {r : CacheRun α} {a : α} (h : r.cache.held = some a) {steps : List (CacheStep α)}
    (hsteps : ∀ st ∈ steps, st.replaces = false) : loads d key r steps = [] := by
  obtain ⟨-, hattempts, -⟩ := held_run d key h hsteps
  have hcount := (loads_run d key r hsteps).1
  exact List.eq_nil_of_length_eq_zero (by omega)

/-! ### The lifetime of a cache -/

/-- A change that succeeds on a document in memory is a change of this document, and the text that it leaves
is the text for the result. -/
theorem committed_of_held {r : CacheRun α} {a a' : α} {change : α → Option α}
    (h : r.cache.held = some a)
    (hanswer : (r.step d key (.write (.update change))).1 = .written (.ok (.committed a'))) :
    change a = some a' ∧ ∃ text, d.encode a' = some text ∧
      (r.step d key (.write (.update change))).2.memory.payload key = some text ∧
      (r.step d key (.write (.update change))).2.cache.held = some a' := by
  have hwrite := Cache.writes_write d key (.update change) r.cache r.memory
  simp only [step] at hanswer ⊢
  generalize Cache.write d key (.update change) r.cache r.memory = out at hanswer hwrite
  obtain ⟨v, c, m⟩ := out
  cases hanswer
  cases hwrite with
  | committed _ hfetch hchange hencode =>
      obtain ⟨hok, -, -⟩ := Cache.fetches_of_held h hfetch
      cases hok
      exact ⟨hchange, _, hencode, Memory.payload_setPayload_self _ _ _, rfl⟩

/-- **A document in memory is there to stay.**  Until a new cache is made it is what the commands make of
it, and no load is attempted.  Whatever is done to the texts and to the switch for loads behind the back of
the cache, its answers are the same.  The next change that succeeds puts a text into the store that comes
from the document in memory, and so does every command after it.  The loads that a cache attempts in its
lifetime are the one it starts with and those of the reads and changes that find no document, and only one
of them can yield a document. -/
theorem held_to_stay (d : DocumentType α) (key : DocumentKey) :
    (∀ (r : CacheRun α) (a : α) (steps : List (CacheStep α)), r.cache.held = some a →
      (∀ st ∈ steps, st.replaces = false) →
      (r.run d key steps).2.cache.held = some ((writings d key r steps).foldl (stand d) a) ∧
      (r.run d key steps).2.memory.attempts .load = r.memory.attempts .load) ∧
    (∀ (r r' : CacheRun α) (steps steps' : List (CacheStep α)), InStep r r' →
      (∀ st ∈ steps ++ steps', st.replaces = false) →
      (steps.filter fun st => !st.meddles) = (steps'.filter fun st => !st.meddles) →
      heard d key r steps = heard d key r' steps' ∧
      (r.run d key steps).2.cache = (r'.run d key steps').2.cache) ∧
    (∀ (r : CacheRun α) (a a' : α) (change : α → Option α), r.cache.held = some a →
      (r.step d key (.write (.update change))).1 = .written (.ok (.committed a')) →
      change a = some a' ∧ ∃ text, d.encode a' = some text ∧
        (r.step d key (.write (.update change))).2.memory.payload key = some text ∧
        (r.step d key (.write (.update change))).2.cache.held = some a') ∧
    (∀ (r : CacheRun α) (a : α) (steps : List (CacheStep α)), r.cache.held = some a →
      (∀ st ∈ steps, st.replaces = false ∧ st.leavesText = true) →
      (r.run d key steps).2.memory.payload key =
        ((writings d key r steps).foldl (overwrite d) (a, r.memory.payload key)).2) ∧
    ∀ (m : Memory) (steps : List (CacheStep α)), (∀ st ∈ steps, st.replaces = false) →
      let outcomes := (Cache.fetch d key ⟨none, true⟩ m).1 :: loads d key (start d key m) steps
      ((start d key m).run d key steps).2.memory.attempts .load =
        m.attempts .load + outcomes.length ∧
      outcomes.countP Except.isOk ≤ 1 := by
  refine ⟨?_, ?_, fun r a a' change => committed_of_held, fun r a steps => payload_run, ?_⟩
  · intro r a steps h hsteps
    obtain ⟨hheld, hattempts, -⟩ := held_run d key h hsteps
    exact ⟨hheld, hattempts⟩
  · intro r r' steps steps' h hsteps hfilter
    -- both are compared with the first cache when nobody meddles with its store
    have hself : InStep r r := .refl h.held
    obtain ⟨hheard, hcache⟩ := hself.heard_filter d key
      fun st hst => hsteps st (List.mem_append_left _ hst)
    obtain ⟨hheard', hcache'⟩ := h.symm.heard_filter d key
      fun st hst => hsteps st (List.mem_append_right _ hst)
    rw [hfilter] at hheard hcache
    exact ⟨hheard.trans hheard'.symm, hcache.symm.trans hcache'⟩
  · intro m steps hsteps outcomes
    obtain ⟨hattempts, hcount⟩ := loads_run d key (start d key m) hsteps
    obtain ⟨hattempts', hcount'⟩ := loads_start d key m
    have hlength : outcomes.length = 1 + (loads d key (start d key m) steps).length :=
      Nat.add_comm _ _
    have hcountP : outcomes.countP Except.isOk = [(Cache.fetch d key ⟨none, true⟩ m).1].countP Except.isOk +
        (loads d key (start d key m) steps).countP Except.isOk := by
      rw [← List.countP_append, List.singleton_append]
    omega

/-- A corrupt text and a refusal of loads, which nobody notices: the next change puts its text in the place
of the corrupt one. -/
theorem held_to_stay_over_corrupt_text :
    let key : DocumentKey := ⟨"numbers", "p"⟩
    let push : CacheStep (List Int64) := .write (.update (NumberChange.push 2).apply)
    let steps : List (CacheStep (List Int64)) := [.setPayload (some "[7"), .refuse .load true, .read]
    let r : CacheRun (List Int64) := start numbersDocument key Memory.blank
    let q := (r.run numbersDocument key steps).2
    q.cache.held = some [] ∧
    heard numbersDocument key r (steps ++ [push]) = heard numbersDocument key r [.read, push] ∧
    (q.step numbersDocument key push).2.cache.held = some [2] ∧
    (q.run numbersDocument key [push]).2.memory.payload key = numbersDocument.encode [2] ∧
    q.memory.attempts .load = 1 := by
  intro key push steps r q
  obtain ⟨hheld, hheard, hcommit, hpayload, hloads⟩ := held_to_stay numbersDocument key
  have hsteps : ∀ st ∈ steps, st.replaces = false := by simp [steps, CacheStep.replaces]
  have hq : q.cache.held = some [] := (hheld r [] steps rfl hsteps).1
  refine ⟨hq, ?_, ?_, ?_, (hloads Memory.blank steps hsteps).1⟩
  · refine (hheard r r (steps ++ [push]) [.read, push] (.refl rfl) ?_ rfl).1
    simp [steps, push, CacheStep.replaces]
  · obtain ⟨-, text, -, -, hheld'⟩ := hcommit q [] [2] (NumberChange.push 2).apply hq rfl
    exact hheld'
  · refine hpayload q [] [push] hq ?_
    simp [push, CacheStep.replaces, CacheStep.leavesText]

end CacheRun

end StudyTime
