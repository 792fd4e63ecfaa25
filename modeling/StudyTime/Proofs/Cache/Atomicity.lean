/-
**A read or a command that fails leaves no trace.**

Whatever it is that fails, the text in the store stays as it was.  The document in memory stays as well, or
it was loaded on the way and is what the text stands for; nobody can tell the difference as long as loads
are not refused, because then it would be loaded at the next occasion anyway.  So what is answered later
is what would be answered if the read or the command had never been issued.  There is one exception: a
change that aborts takes the writer down.

Main definitions:

* `CacheRun.Refreshes` — a cache with its store, and the same with the document loaded;
* `CacheRun.LoadsSucceed` — a run on which no load is refused;
* `CacheRun.Harmless` — what a failure leaves behind.

Main results:

* `CacheRun.Refreshes.step`, `CacheRun.Refreshes.run` — **having loaded the document makes no difference**;
* `CacheRun.failed_harmless` — **what fails is harmless**, by itself or as part of a batch.
-/

import StudyTime.Proofs.Cache.Outcomes

set_option relaxedAutoImplicit false
set_option autoImplicit false

namespace StudyTime

/-- The answer without the counts, if it consists of them. -/
def CacheAnswer.uncounted {α : Type} : CacheAnswer α → CacheAnswer α
  | .counts _ => .done
  | a => a

/-- The error with which a read or a command was answered. -/
def CacheAnswer.error? {α : Type} : CacheAnswer α → Option CacheError
  | .value (.error e) => some e
  | .primed (.error e) => some e
  | .written (.error e) => some e
  | _ => none

namespace CacheRun

variable {α : Type} {d : DocumentType α} {key : DocumentKey}

/-! ### Having loaded the document -/

/-- The second cache with its store is like the first one, except that the document may have been loaded
and attempts may have been counted. -/
structure Refreshes (d : DocumentType α) (key : DocumentKey) (r r' : CacheRun α) : Prop where
  uncounted_eq : r'.memory.uncounted = r.memory.uncounted
  writing_eq : r'.cache.writing = r.cache.writing
  /-- The documents in memory are the same, or the text stands for the one that was loaded. -/
  held : r'.cache.held = r.cache.held ∨
    r.cache.held = none ∧ ∃ a, r'.cache.held = some a ∧
      Cache.decode d key (r.memory.payload key) = .ok a

namespace Refreshes

variable {r r' : CacheRun α}

/-- Reading does no more than load the document. -/
theorem of_fetches {v : Except CacheError α} {c : Cache α} {m : Memory}
    (h : Cache.Fetches d key r.cache r.memory (v, c, m)) : Refreshes d key r ⟨c, m⟩ := by
  refine ⟨h.uncounted_eq, h.writing_eq, ?_⟩
  cases h with
  | held | refused | undecoded => exact .inl rfl
  | loaded hheld _ hdecode => exact .inr ⟨hheld, _, rfl, hdecode⟩

theorem refused_eq (h : Refreshes d key r r') : r'.memory.refused = r.memory.refused :=
  Memory.refused_eq_of_uncounted h.uncounted_eq

theorem payload_eq (h : Refreshes d key r r') : r'.memory.payload key = r.memory.payload key :=
  Memory.payload_eq_of_uncounted key h.uncounted_eq

/-- Caches that hold the same, over stores with the same counts. -/
theorem of_held_eq {c c' : Cache α} {m m' : Memory} (hm : m'.uncounted = m.uncounted)
    (hc : c'.writing = c.writing) (hheld : c'.held = c.held) : Refreshes d key ⟨c, m⟩ ⟨c', m'⟩ :=
  ⟨hm, hc, .inl hheld⟩

/-- **Reading** goes the same way, unless a load is refused. -/
theorem fetches (h : Refreshes d key r r') {v : Except CacheError α} {c : Cache α} {m : Memory}
    (hout : Cache.Fetches d key r.cache r.memory (v, c, m))
    (hload : r.memory.refused .load = true → m.attempts .load = r.memory.attempts .load) :
    ∃ c' m', Cache.Fetches d key r'.cache r'.memory (v, c', m') ∧
      Refreshes d key ⟨c, m⟩ ⟨c', m'⟩ := by
  cases hout with
  | held hheld =>
      obtain hsame | ⟨hnone, -⟩ := h.held
      · exact ⟨_, _, .held (hsame.trans hheld), h⟩
      · rw [hheld] at hnone
        cases hnone
  | refused _ hrefused =>
      have hcount := hload hrefused
      simp [Memory.attempts_count] at hcount
  | undecoded hheld hloading hdecode =>
      rw [← h.refused_eq] at hloading
      obtain hsame | ⟨-, a, -, ha⟩ := h.held
      · rw [← h.payload_eq] at hdecode
        exact ⟨_, _, .undecoded (hsame.trans hheld) hloading hdecode,
          of_held_eq h.uncounted_eq h.writing_eq hsame⟩
      · rw [hdecode] at ha
        cases ha
  | loaded hheld hloading hdecode =>
      rw [← h.refused_eq] at hloading
      obtain hsame | ⟨-, a, hheld', ha⟩ := h.held
      · rw [← h.payload_eq] at hdecode
        exact ⟨_, _, .loaded (hsame.trans hheld) hloading hdecode,
          of_held_eq h.uncounted_eq h.writing_eq rfl⟩
      · cases hdecode.symm.trans ha
        exact ⟨_, _, .held hheld', of_held_eq h.uncounted_eq h.writing_eq hheld'⟩

/-- **A command** goes the same way, unless a load is refused. -/
theorem writes (h : Refreshes d key r r') {cmd : Command α} {v : Except CacheError (Reply α)}
    {c : Cache α} {m : Memory} (hout : Cache.Writes d key r.cache r.memory cmd (v, c, m))
    (hload : r.memory.refused .load = true → m.attempts .load = r.memory.attempts .load) :
    ∃ c' m', Cache.Writes d key r'.cache r'.memory cmd (v, c', m') ∧
      Refreshes d key ⟨c, m⟩ ⟨c', m'⟩ := by
  cases hout with
  | closed _ hc => exact ⟨_, _, .closed cmd (h.writing_eq.trans hc), h⟩
  | undeleted hc hdelete =>
      rw [← h.refused_eq] at hdelete
      exact ⟨_, _, .undeleted (h.writing_eq.trans hc) hdelete, h.uncounted_eq, h.writing_eq, h.held⟩
  | cleared hc hdelete =>
      rw [← h.refused_eq] at hdelete
      refine ⟨_, _, .cleared (h.writing_eq.trans hc) hdelete, of_held_eq ?_ h.writing_eq rfl⟩
      simp [h.uncounted_eq]
  | unloaded hc hfetch =>
      obtain ⟨c', m', hfetch', hrefreshes⟩ := h.fetches hfetch hload
      exact ⟨_, _, .unloaded (h.writing_eq.trans hc) hfetch', hrefreshes⟩
  | aborted hc hfetch ha =>
      obtain ⟨c', m', hfetch', hrefreshes⟩ := h.fetches hfetch hload
      exact ⟨_, _, .aborted (h.writing_eq.trans hc) hfetch' ha, hrefreshes.uncounted_eq, rfl,
        hrefreshes.held⟩
  | unwritable hc hfetch ha hencode =>
      obtain ⟨c', m', hfetch', hrefreshes⟩ := h.fetches hfetch hload
      exact ⟨_, _, .unwritable (h.writing_eq.trans hc) hfetch' ha hencode, hrefreshes⟩
  | unstored hc hfetch ha hencode hstore =>
      obtain ⟨c', m', hfetch', hrefreshes⟩ :=
        h.fetches hfetch (by simpa [Memory.attempts_count] using hload)
      rw [← hrefreshes.refused_eq] at hstore
      exact ⟨_, _, .unstored (h.writing_eq.trans hc) hfetch' ha hencode hstore,
        hrefreshes.uncounted_eq, hrefreshes.writing_eq, hrefreshes.held⟩
  | committed hc hfetch ha hencode hstore =>
      obtain ⟨c', m', hfetch', hrefreshes⟩ :=
        h.fetches hfetch (by simpa [Memory.attempts_count] using hload)
      rw [← hrefreshes.refused_eq] at hstore
      refine ⟨_, _, .committed (h.writing_eq.trans hc) hfetch' ha hencode hstore,
        of_held_eq ?_ hrefreshes.writing_eq rfl⟩
      have hm : m'.uncounted = _ := hrefreshes.uncounted_eq
      simp [hm]

/-- **Commands one by one** go the same way, unless a load is refused. -/
theorem serial {cmds : List (Command α)} :
    ∀ {r r' : CacheRun α}, Refreshes d key r r' →
      (r.memory.refused .load = true →
        (r.cache.serial d key cmds r.memory).2.2.attempts .load = r.memory.attempts .load) →
      (r'.cache.serial d key cmds r'.memory).1 = (r.cache.serial d key cmds r.memory).1 ∧
      Refreshes d key
        ⟨(r.cache.serial d key cmds r.memory).2.1, (r.cache.serial d key cmds r.memory).2.2⟩
        ⟨(r'.cache.serial d key cmds r'.memory).2.1, (r'.cache.serial d key cmds r'.memory).2.2⟩ := by
  induction cmds with
  | nil =>
      intro r r' h _
      exact ⟨rfl, h⟩
  | cons cmd cmds ih =>
      intro r r' h hload
      have hout := Cache.writes_write d key cmd r.cache r.memory
      generalize hwrite : Cache.write d key cmd r.cache r.memory = out at hout
      obtain ⟨v, c, m⟩ := out
      rw [Cache.serial_cons cmd cmds hwrite] at hload ⊢
      have hle : m.attempts .load ≤ _ := Cache.attempts_load_le_serial d key cmds c m
      have hcmd := hout.attempts_load
      obtain ⟨c', m', hout', hrefreshes⟩ := h.writes hout fun hrefused => by
        have hcount := hload hrefused
        dsimp only at hcount
        omega
      rw [Cache.serial_cons cmd cmds hout'.eq]
      obtain ⟨hanswers, hfinal⟩ := ih hrefreshes fun hrefused => by
        rw [hout.refused_eq] at hrefused
        have hcount := hload hrefused
        dsimp only at hcount ⊢
        omega
      dsimp only at hanswers hfinal ⊢
      exact ⟨by rw [hanswers], hfinal⟩

/-! ### Steps and runs -/

/-- Reading, by itself or for a new cache. -/
theorem fetch (h : Refreshes d key r r')
    (hload : r.memory.refused .load = true →
      (r.cache.fetch d key r.memory).2.2.attempts .load = r.memory.attempts .load) :
    (r'.cache.fetch d key r'.memory).1 = (r.cache.fetch d key r.memory).1 ∧
    Refreshes d key
      ⟨(r.cache.fetch d key r.memory).2.1, (r.cache.fetch d key r.memory).2.2⟩
      ⟨(r'.cache.fetch d key r'.memory).2.1, (r'.cache.fetch d key r'.memory).2.2⟩ := by
  obtain ⟨c', m', hfetch', hrefreshes⟩ :=
    h.fetches (Cache.fetches_fetch d key r.cache r.memory) hload
  rw [hfetch'.eq]
  exact ⟨rfl, hrefreshes⟩

/-- **Having loaded the document makes no difference to a step**, unless a load is refused. -/
theorem step (h : Refreshes d key r r') {st : CacheStep α} (hst : st.leavesText = true)
    (hload : r.memory.refused .load = true →
      (r.step d key st).2.memory.attempts .load = r.memory.attempts .load) :
    (r'.step d key st).1.uncounted = (r.step d key st).1.uncounted ∧
    Refreshes d key (r.step d key st).2 (r'.step d key st).2 := by
  cases st with
  | read =>
      obtain ⟨hanswer, hrefreshes⟩ := h.fetch hload
      refine ⟨?_, hrefreshes⟩
      simp only [CacheRun.step, hanswer]
  | prime =>
      obtain ⟨hanswer, hrefreshes⟩ := h.fetch hload
      refine ⟨?_, hrefreshes⟩
      simp only [CacheRun.step, hanswer]
  | write cmd =>
      obtain ⟨c', m', hwrite', hrefreshes⟩ :=
        h.writes (Cache.writes_write d key cmd r.cache r.memory) hload
      simp only [CacheRun.step, hwrite'.eq]
      exact ⟨rfl, hrefreshes⟩
  | batch cmds awaited =>
      rw [step_batch] at hload ⊢
      obtain ⟨hanswers, hrefreshes⟩ := h.serial hload
      rw [step_batch, hanswers]
      exact ⟨rfl, hrefreshes⟩
  | refuse op on =>
      refine ⟨rfl, ?_, h.writing_eq, h.held⟩
      exact congrArg (fun m => m.refuse op on) h.uncounted_eq
  | payload => exact ⟨congrArg CacheAnswer.payload h.payload_eq, h⟩
  | setPayload text => cases hst
  | counts => exact ⟨rfl, h⟩
  | restart =>
      have hnew : Refreshes d key ⟨⟨none, true⟩, r.memory⟩ ⟨⟨none, true⟩, r'.memory⟩ :=
        of_held_eq h.uncounted_eq rfl rfl
      exact ⟨rfl, (hnew.fetch hload).2⟩

end Refreshes

/-- No load that is attempted in the course of the steps is refused. -/
def LoadsSucceed (d : DocumentType α) (key : DocumentKey) : CacheRun α → List (CacheStep α) → Prop :=
  Throughout d key fun r st => r.memory.refused .load = true →
    (r.step d key st).2.memory.attempts .load = r.memory.attempts .load

/-- **Having loaded the document makes no difference to what is answered**, apart from the counts. -/
theorem Refreshes.run {steps : List (CacheStep α)} :
    ∀ {r r' : CacheRun α}, Refreshes d key r r' → (∀ st ∈ steps, st.leavesText = true) →
      LoadsSucceed d key r steps →
      (r'.run d key steps).1.map CacheAnswer.uncounted =
        (r.run d key steps).1.map CacheAnswer.uncounted := by
  induction steps with
  | nil =>
      intro r r' _ _ _
      rfl
  | cons st steps ih =>
      intro r r' h hsteps hloads
      obtain ⟨hst, hrest⟩ := List.forall_mem_cons.1 hsteps
      obtain ⟨hanswer, hrefreshes⟩ := h.step hst hloads.1
      have hanswers := ih hrefreshes hrest hloads.2
      rw [run_cons, run_cons, List.map_cons, List.map_cons, hanswer, hanswers]

/-! ### Failures -/

/-- What a failure leaves behind.  The store is as it was, apart from the counts, and so is the document in
memory, unless it was loaded; the writer is as it was, unless a change aborted.  So all that is answered
later is as if there had been no failure, with the writer as it is now. -/
structure Harmless (d : DocumentType α) (key : DocumentKey) (r : CacheRun α) (st : CacheStep α)
    (r' : CacheRun α) : Prop where
  uncounted_eq : r'.memory.uncounted = r.memory.uncounted
  /-- The document in memory is the same, or it is the one in the store. -/
  held : r'.cache.held = r.cache.held ∨
    r.cache.held = none ∧ ∃ a, r'.cache.held = some a ∧
      Cache.decode d key (r'.memory.payload key) = .ok a
  /-- The writer is the same, or the change of the document aborted. -/
  writing : r'.cache.writing = r.cache.writing ∨
    r.cache.writing = true ∧ r'.cache.writing = false ∧
      ∃ change a, st = .write (.update change) ∧ r'.cache.held = some a ∧ change a = none
  /-- Later answers are the same as without the failure. -/
  later : ∀ steps : List (CacheStep α), (∀ st ∈ steps, st.leavesText = true) →
    LoadsSucceed d key ⟨{ r.cache with writing := r'.cache.writing }, r.memory⟩ steps →
    (r'.run d key steps).1.map CacheAnswer.uncounted =
      ((⟨{ r.cache with writing := r'.cache.writing }, r.memory⟩ : CacheRun α).run d key
        steps).1.map CacheAnswer.uncounted

/-- What does no more than load the document or take the writer down is harmless. -/
theorem harmless_of_refreshes {r r' : CacheRun α} {st : CacheStep α}
    (h : Refreshes d key ⟨{ r.cache with writing := r'.cache.writing }, r.memory⟩ r')
    (hwriting : r'.cache.writing = r.cache.writing ∨
      r.cache.writing = true ∧ r'.cache.writing = false ∧
        ∃ change a, st = .write (.update change) ∧ r'.cache.held = some a ∧ change a = none) :
    Harmless d key r st r' := by
  refine ⟨h.uncounted_eq, ?_, hwriting, fun steps hsteps hloads => h.run hsteps hloads⟩
  rw [h.payload_eq]
  exact h.held

/-- What does no more than load the document is harmless. -/
theorem Refreshes.harmless {r r' : CacheRun α} (h : Refreshes d key r r') (st : CacheStep α) :
    Harmless d key r st r' := by
  refine harmless_of_refreshes ?_ (.inl h.writing_eq)
  rw [h.writing_eq]
  exact h

/-- **A command that fails is harmless.** -/
theorem harmless_of_writes {r : CacheRun α} {cmd : Command α} {e : CacheError} {c : Cache α}
    {m : Memory} (h : Cache.Writes d key r.cache r.memory cmd (.error e, c, m)) :
    Harmless d key r (.write cmd) ⟨c, m⟩ := by
  cases h with
  | closed => exact (Refreshes.of_held_eq rfl rfl rfl).harmless _
  | undeleted =>
      have hrefreshes : Refreshes d key r ⟨r.cache, r.memory.count .delete⟩ := .of_held_eq rfl rfl rfl
      exact hrefreshes.harmless _
  | unloaded _ hfetch => exact (Refreshes.of_fetches hfetch).harmless _
  | aborted hc hfetch ha =>
      have hrefreshes := Refreshes.of_fetches hfetch
      refine harmless_of_refreshes ⟨hrefreshes.uncounted_eq, rfl, hrefreshes.held⟩ (.inr ?_)
      exact ⟨hc, rfl, _, _, rfl, hfetch.held_eq, ha⟩
  | unwritable _ hfetch => exact (Refreshes.of_fetches hfetch).harmless _
  | @unstored _ _ _ _ _ m' _ hfetch =>
      have hloaded := Refreshes.of_fetches hfetch
      have hrefreshes : Refreshes d key r ⟨c, m'.count .store⟩ :=
        ⟨hloaded.uncounted_eq, hloaded.writing_eq, hloaded.held⟩
      exact hrefreshes.harmless _

/-- **A step that fails is harmless.** -/
theorem harmless_of_error {r : CacheRun α} {st : CacheStep α} {e : CacheError}
    (h : (r.step d key st).1.error? = some e) : Harmless d key r st (r.step d key st).2 := by
  cases st with
  | read => exact (Refreshes.of_fetches (Cache.fetches_fetch d key r.cache r.memory)).harmless _
  | prime => exact (Refreshes.of_fetches (Cache.fetches_fetch d key r.cache r.memory)).harmless _
  | write cmd =>
      have hwrites := Cache.writes_write d key cmd r.cache r.memory
      simp only [step] at h ⊢
      generalize Cache.write d key cmd r.cache r.memory = out at h hwrites
      obtain ⟨v, c, m⟩ := out
      cases v with
      | ok reply => cases h
      | error e' => exact harmless_of_writes hwrites
  | batch cmds awaited =>
      rw [step_batch] at h
      cases h
  | refuse op on => cases h
  | payload => cases h
  | setPayload text => cases h
  | counts => cases h
  | restart => cases h

/-- **Whatever fails is harmless**: a read, a command, or a command in the middle of a batch.  A batch is
the commands in front of this one, this one, and those behind it, which go on from what it left; each of
those who wait gets the answer to the command, and if that is an error the command was harmless. -/
theorem failed_harmless (d : DocumentType α) (key : DocumentKey) (r : CacheRun α) :
    (∀ st e, (r.step d key st).1.error? = some e → Harmless d key r st (r.step d key st).2) ∧
    ∀ (front : List (Command α)) (cmd : Command α) (back : List (Command α)) (awaited : List Nat),
      let q := (r.run d key (front.map .write)).2
      let q' := (q.step d key (.write cmd)).2
      ∃ before v after,
        (r.run d key (front.map .write)).1 = before.map .written ∧
        (q.step d key (.write cmd)).1 = .written v ∧
        (q'.run d key (back.map .write)).1 = after.map .written ∧
        r.step d key (.batch (front ++ cmd :: back) awaited) =
          (.many ((before ++ v :: after).mapIdx fun n a => if n ∈ awaited then some a else none),
            (q'.run d key (back.map .write)).2) ∧
        ∀ e, v = .error e → Harmless d key q (.write cmd) q' := by
  refine ⟨fun st e h => harmless_of_error h, ?_⟩
  intro front cmd back awaited
  simp only [run_writes]
  refine ⟨_, ((r.cache.serial d key front r.memory).2.1.write d key cmd
    (r.cache.serial d key front r.memory).2.2).1, _, rfl, rfl, rfl, ?_, ?_⟩
  · rw [step_batch, Cache.serial_append, Cache.serial_cons cmd back rfl]
    rfl
  · intro e he
    have herror : CacheAnswer.error? (α := α) (.written (.error e)) = some e := rfl
    rw [← he] at herror
    exact harmless_of_error herror

/-- The text cannot be stored, but the document was loaded; it is read without it just as well. -/
theorem failed_harmless_of_refusal :
    let key : DocumentKey := ⟨"numbers", "p"⟩
    let r : CacheRun (List Int64) := ⟨⟨none, true⟩, Memory.blank.refuse .store true⟩
    let st : CacheStep (List Int64) := .write (.update (NumberChange.push 2).apply)
    let steps : List (CacheStep (List Int64)) :=
      [.refuse .store false, .write (.update (NumberChange.push 3).apply), .read]
    (r.step numbersDocument key st).1.error? = some (.persist key (.injected .store)) ∧
    ((r.step numbersDocument key st).2.run numbersDocument key steps).1.map CacheAnswer.uncounted =
      (r.run numbersDocument key steps).1.map CacheAnswer.uncounted := by
  intro key r st steps
  have herror : (r.step numbersDocument key st).1.error? = some (.persist key (.injected .store)) := by
    rfl
  refine ⟨herror, ?_⟩
  refine ((failed_harmless numbersDocument key r).1 st _ herror).later steps ?_ ?_
  · simp [steps, CacheStep.leavesText]
  · -- nothing refuses a load
    simp only [steps, LoadsSucceed, Throughout]
    refine ⟨?_, ?_, ?_, trivial⟩ <;> exact fun h => absurd h (by decide)

end CacheRun

end StudyTime
