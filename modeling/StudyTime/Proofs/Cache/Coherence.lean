/-
**The document in memory is the one in the store.**

A cache is coherent with its store if the document that it holds, once it holds one, is what the kept
text stands for.  A document is held only after it was loaded or after its text was accepted, and a
deleted document is held as the blank one, which is what no text stands for.  So no command loses
coherence, whether it succeeds, is refused, cannot be written or aborts, and neither do turns of the
writer in any order.  A cache that is coherent reads what a new cache over the same store would read.

Main definitions:

* `Cache.Coherent` — the invariant;
* `Cache.Fetched` — what reading does;
* `Effect` — what a command does to the texts, given its answer.

Main results:

* `Cache.Coherent.fetch`, `Cache.Coherent.write` — reading and writing, as seen from the texts;
* `CacheRun.coherent_of_run` — **every run keeps the cache coherent**, unless the text is changed
  behind its back, and a new cache reads the same as the old one.
-/

import StudyTime.Proofs.Cache.Batches
import StudyTime.Proofs.Stores

set_option relaxedAutoImplicit false
set_option autoImplicit false

namespace StudyTime

variable {σ α : Type} [Backend σ] [LawfulStore σ] {d : DocumentType α} {key : DocumentKey}

/-! ### Texts and documents -/

namespace Cache

theorem decode_none : decode d key none = .ok d.blank := rfl

/-- The text for a document stands for this document. -/
theorem decode_encode {a : α} {text : String} (h : d.encode a = some text) :
    decode d key (some text) = .ok a := by
  simp only [decode, d.decode_encode h]

/-- The document that a cache holds is what the kept text stands for. -/
def Coherent (d : DocumentType α) (key : DocumentKey) (c : Cache α) (s : σ) : Prop :=
  ∀ a, c.held = some a → decode d key ((kept s).payload key) = .ok a

variable {c : Cache α} {s : σ}

theorem coherent_of_none (h : c.held = none) : c.Coherent d key s := by
  intro a ha
  rw [h] at ha
  cases ha

/-- Coherence is about what the text under the key stands for and nothing else. -/
theorem Coherent.of_decode_eq (h : c.Coherent d key s) {s' : σ}
    (hs : decode d key ((kept s').payload key) = decode d key ((kept s).payload key)) :
    c.Coherent d key s' := by
  intro a ha
  rw [hs]
  exact h a ha

/-! ### Reading -/

/-- What reading does: the texts stay as they are, and the answer, if it is a document, is what the
text stands for and is held from then on. -/
structure Fetched (d : DocumentType α) (key : DocumentKey) (c : Cache α) (s : σ)
    (out : Except CacheError α × Cache α × σ) : Prop where
  /-- The store keeps what it kept. -/
  kept_eq : kept out.2.2 = kept s
  writing_eq : out.2.1.writing = c.writing
  /-- The cache is coherent with its store. -/
  coherent : out.2.1.Coherent d key out.2.2
  /-- The answer is what the text stands for. -/
  decode_of_ok : ∀ {a}, out.1 = .ok a → decode d key ((kept s).payload key) = .ok a
  /-- On a sound store a text that stands for a document is read, and the store stays sound. -/
  sound : Sound s → ∀ {a}, decode d key ((kept s).payload key) = .ok a → out.1 = .ok a ∧ Sound out.2.2

/-- **Reading a coherent cache** leaves it coherent, and reads what the text stands for. -/
theorem Coherent.fetch (h : c.Coherent d key s) : Fetched d key c s (fetch d key c s) := by
  have hload := LawfulStore.load key s
  unfold Cache.fetch
  split
  next a ha =>
    constructor
    · rfl
    · rfl
    · exact h
    · intro a' hok
      cases hok
      exact h a ha
    · intro hsound a' ha'
      cases (h a ha).symm.trans ha'
      exact ⟨rfl, hsound⟩
  next hnone =>
    split
    next f s' hout =>
      rw [hout] at hload
      constructor
      · exact hload.kept_eq
      · rfl
      · exact coherent_of_none hnone
      · intro a hok
        cases hok
      · intro hsound
        exact absurd (hload.sound hsound).1 (by simp)
    next text s' hout =>
      rw [hout] at hload
      have htext : text = (kept s).payload key := hload.found rfl
      split
      next f hdecode =>
        -- nothing is held after a text that stands for no document
        constructor
        · exact hload.kept_eq
        · rfl
        · exact coherent_of_none hnone
        · intro a hok
          cases hok
        · intro hsound a ha
          rw [← htext, hdecode] at ha
          cases ha
      next a hdecode =>
        rw [htext] at hdecode
        constructor
        · exact hload.kept_eq
        · rfl
        · intro a' ha'
          cases ha'
          rw [hload.kept_eq]
          exact hdecode
        · intro a' hok
          cases hok
          exact hdecode
        · intro hsound a' ha'
          cases hdecode.symm.trans ha'
          exact ⟨rfl, (hload.sound hsound).2⟩

/-- **A new cache is coherent.** -/
theorem coherent_create (d : DocumentType α) (key : DocumentKey) (s : σ) :
    (create d key s).1.Coherent d key (create d key s).2 :=
  (Coherent.fetch (coherent_of_none rfl)).coherent

end Cache

/-! ### Writing -/

/-- What a command does to the texts, given its answer.  A document is committed only with its text,
and only if it is what the change makes of the document that was kept. -/
inductive Effect (d : DocumentType α) (key : DocumentKey) (k : Kept) :
    Command α → Except CacheError (Reply α) → Kept → Prop
  | failed (cmd : Command α) (e : CacheError) : Effect d key k cmd (.error e) k
  | committed {change : α → Option α} {a a' : α} {text : String} :
    Cache.decode d key (k.payload key) = .ok a → change a = some a' → d.encode a' = some text →
      Effect d key k (.update change) (.ok (.committed a')) (k.setPayload key (some text))
  | cleared : Effect d key k .clear (.ok .cleared) (k.setPayload key none)

theorem Effect.failed_of_eq {k k' : Kept} (h : k' = k) (cmd : Command α) (e : CacheError) :
    Effect d key k cmd (.error e) k' :=
  h ▸ .failed cmd e

namespace Cache

variable {c : Cache α} {s : σ}

/-- What writing does: the texts change as the answer says, and the cache stays coherent. -/
structure Written (d : DocumentType α) (key : DocumentKey) (s : σ) (cmd : Command α)
    (out : Except CacheError (Reply α) × Cache α × σ) : Prop where
  /-- The texts change as the answer says. -/
  effect : Effect d key (kept s) cmd out.1 (kept out.2.2)
  /-- The cache is coherent with its store. -/
  coherent : out.2.1.Coherent d key out.2.2

/-- Committing what a change makes of the document that is kept. -/
theorem Coherent.commit (h : c.Coherent d key s) {change : α → Option α} {a a' : α}
    (ha : decode d key ((kept s).payload key) = .ok a) (ha' : change a = some a') :
    Written d key s (.update change) (commit d key a' c s) := by
  unfold Cache.commit
  split
  next => exact ⟨.failed _ _, h⟩
  next text htext =>
    have hstore := LawfulStore.store key text s
    split
    next f s' hout =>
      rw [hout] at hstore
      have hkept : kept s' = kept s := hstore.kept_of_error rfl
      exact ⟨.failed_of_eq hkept _ _, h.of_decode_eq (by rw [hkept])⟩
    next s' hout =>
      rw [hout] at hstore
      have hkept : kept s' = (kept s).setPayload key (some text) := hstore.kept_of_ok rfl
      constructor
      · dsimp only
        rw [hkept]
        exact .committed ha ha' htext
      · intro a hheld
        cases hheld
        rw [hkept, Kept.payload_setPayload_self]
        exact decode_encode htext

theorem Coherent.drop (h : c.Coherent d key s) : Written d key s .clear (drop d key c s) := by
  have hdelete := LawfulStore.delete key s
  unfold Cache.drop
  split
  next f s' hout =>
    rw [hout] at hdelete
    have hkept : kept s' = kept s := hdelete.kept_of_error rfl
    exact ⟨.failed_of_eq hkept _ _, h.of_decode_eq (by rw [hkept])⟩
  next s' hout =>
    rw [hout] at hdelete
    have hkept : kept s' = (kept s).setPayload key none := hdelete.kept_of_ok rfl
    constructor
    · dsimp only
      rw [hkept]
      exact .cleared
    · intro a hheld
      cases hheld
      rw [hkept, Kept.payload_setPayload_self, decode_none]

/-- **Performing a command** changes the texts as its answer says, and nothing if there is none. -/
theorem Coherent.perform (h : c.Coherent d key s) (cmd : Command α) :
    Written d key s cmd ((perform d key cmd c s).1.getD (.error (.closed key)),
      (perform d key cmd c s).2) := by
  cases cmd with
  | clear => exact h.drop
  | update change =>
      have hfetch := h.fetch
      simp only [Cache.perform]
      split
      next e c' s' hout =>
        rw [hout] at hfetch
        exact ⟨.failed_of_eq hfetch.kept_eq _ _, hfetch.coherent⟩
      next a c' s' hout =>
        rw [hout] at hfetch
        have hkept : kept s' = kept s := hfetch.kept_eq
        split
        next => exact ⟨.failed_of_eq hkept _ _, hfetch.coherent⟩
        next a' ha' =>
          have hwritten : Written d key s' (.update change) (Cache.commit d key a' c' s') :=
            Coherent.commit hfetch.coherent (by rw [hkept]; exact hfetch.decode_of_ok rfl) ha'
          exact ⟨hkept ▸ hwritten.effect, hwritten.coherent⟩

/-- **Writing to a coherent cache** changes the texts as the answer says, and leaves it coherent. -/
theorem Coherent.write (h : c.Coherent d key s) (cmd : Command α) :
    Written d key s cmd (write d key cmd c s) := by
  have hperform := h.perform cmd
  cases hc : c.writing with
  | false =>
      rw [write_of_not_writing hc]
      exact ⟨.failed _ _, h⟩
  | true =>
      cases hout : Cache.perform d key cmd c s with
      | mk r state =>
          obtain ⟨c', s'⟩ := state
          rw [hout] at hperform
          cases r with
          | none => rw [write_of_none hc hout]; exact hperform
          | some r => rw [write_of_some hc hout]; exact hperform

/-! ### Sound stores -/

/-- On a sound store a change of a document that can be written succeeds. -/
theorem Coherent.write_update_of_sound (h : c.Coherent d key s) (hc : c.writing = true)
    (hs : Sound s) (change : α → Option α) {a a' : α} {text : String}
    (ha : decode d key ((kept s).payload key) = .ok a) (ha' : change a = some a')
    (htext : d.encode a' = some text) :
    (Cache.write d key (.update change) c s).1 = .ok (.committed a') ∧
    (Cache.write d key (.update change) c s).2.1.writing = true ∧
    Sound (Cache.write d key (.update change) c s).2.2 := by
  have hfetch := h.fetch
  cases hout : Cache.fetch d key c s with
  | mk r state =>
      obtain ⟨c', s'⟩ := state
      rw [hout] at hfetch
      obtain ⟨hr, hs'⟩ := hfetch.sound hs ha
      have hwriting : c'.writing = true := hfetch.writing_eq.trans hc
      obtain ⟨hstored, hs''⟩ := (LawfulStore.store key text s').sound hs'
      cases hstore : Backend.store key text s' with
      | mk r' s'' =>
          rw [hstore] at hstored hs''
          dsimp only at hr hstored
          rw [hr] at hout
          rw [hstored] at hstore
          have hperform : Cache.perform d key (.update change) c s =
              (some (.ok (.committed a')), { c' with held := some a' }, s'') := by
            simp only [Cache.perform, hout, ha', Cache.commit, htext, hstore]
          rw [write_of_some hc hperform]
          exact ⟨rfl, hwriting, hs''⟩

/-- On a sound store deleting a document succeeds. -/
theorem write_clear_of_sound (d : DocumentType α) (key : DocumentKey) (hc : c.writing = true) (hs : Sound s) :
    (write d key .clear c s).1 = .ok .cleared ∧ Sound (write d key .clear c s).2.2 := by
  obtain ⟨hdeleted, hs'⟩ := (LawfulStore.delete key s).sound hs
  cases hdelete : Backend.delete key s with
  | mk r s' =>
      rw [hdelete] at hdeleted hs'
      dsimp only at hdeleted
      rw [hdeleted] at hdelete
      have hperform : Cache.perform d key .clear c s =
          (some (.ok .cleared), { c with held := some d.blank }, s') := by
        simp only [Cache.perform, Cache.drop, hdelete]
      rw [write_of_some hc hperform]
      exact ⟨rfl, hs'⟩

end Cache

/-! ### Turns -/

/-- A turn of the writer keeps the cache coherent. -/
theorem Traffic.coherent_work {t : Traffic σ α} (h : t.cache.Coherent d key t.store) :
    (t.work d key).cache.Coherent d key (t.work d key).store := by
  obtain ⟨-, hwork⟩ | ⟨n, cmd, queue, c, s, -, hperform, hwork⟩ |
    ⟨n, cmd, queue, r, c, s, -, hperform, hwork⟩ := t.work_cases d key
  · rw [hwork]
    exact h
  · have hcoherent := (h.perform cmd).coherent
    rw [hperform] at hcoherent
    rw [hwork]
    exact hcoherent
  · have hcoherent := (h.perform cmd).coherent
    rw [hperform] at hcoherent
    rw [hwork]
    unfold Traffic.send
    split <;> exact hcoherent

/-- Commands that are issued together keep the cache coherent. -/
theorem Cache.Coherent.interleave {c : Cache α} {s : σ} (h : c.Coherent d key s)
    (cmds : List (Command α)) (turns : List Turn) :
    (interleave d key cmds turns c s).2.1.Coherent d key (interleave d key cmds turns c s).2.2 :=
  Traffic.course_keeps (P := fun t => t.cache.Coherent d key t.store)
    (fun _ ht => Traffic.coherent_work ht) turns (.issue cmds (Turn.awaits turns) c s) h

/-! ### Runs -/

/-- Whether the step leaves the kept text to the cache. -/
def CacheStep.leavesText {β : Type} : CacheStep β → Bool
  | .setPayload _ => false
  | _ => true

namespace CacheRun

/-- The cache of a run is coherent with its store. -/
def Coherent (d : DocumentType α) (key : DocumentKey) (r : CacheRun α) : Prop :=
  r.cache.Coherent d key r.memory

theorem coherent_start (m : Memory) : (start d key m).Coherent d key := Cache.coherent_create d key m

/-- A step keeps the cache coherent, unless it changes the text behind its back. -/
theorem Coherent.step {r : CacheRun α} (h : r.Coherent d key) {st : CacheStep α}
    (hst : st.leavesText = true) : (r.step d key st).2.Coherent d key := by
  cases st with
  | read => exact (Cache.Coherent.fetch h).coherent
  | prime => exact (Cache.Coherent.fetch h).coherent
  | write cmd => exact (Cache.Coherent.write h cmd).coherent
  | batch cmds awaited => exact Cache.Coherent.interleave h cmds (awaited.map .await)
  | refuse op on => exact h
  | payload => exact h
  | setPayload text => cases hst
  | counts => exact h
  | restart => exact coherent_start r.memory

theorem Coherent.run {steps : List (CacheStep α)} :
    ∀ {r : CacheRun α}, r.Coherent d key → (∀ st ∈ steps, st.leavesText = true) →
      (r.run d key steps).2.Coherent d key := by
  induction steps with
  | nil =>
      intro r h _
      exact h
  | cons st steps ih =>
      intro r h hsteps
      rw [run_cons]
      refine ih (h.step (hsteps st List.mem_cons_self)) ?_
      intro st' hst'
      exact hsteps st' (List.mem_cons_of_mem _ hst')

/-- While loads are not refused a coherent cache answers what the text stands for. -/
theorem fetch_of_loading {c : Cache α} {m : Memory} (h : c.Coherent d key m)
    (hload : m.refused .load = false) :
    (c.fetch d key m).1 =
      match Cache.decode d key (m.payload key) with
      | .ok a => .ok a
      | .error f => .error (.load key f) := by
  unfold Cache.fetch
  split
  next a ha =>
    have hdecode : Cache.decode d key (m.payload key) = .ok a := h a ha
    rw [hdecode]
  next hnone =>
    rw [Memory.load_of_not_refused hload]
    dsimp only
    cases Cache.decode d key (m.payload key) <;> rfl

/-- A new cache leaves texts and switches alone. -/
theorem create_of_loading {m : Memory} (hload : m.refused .load = false) :
    (Cache.create d key m).2 = m.count .load := by
  simp only [Cache.create, Cache.fetch, Memory.load_of_not_refused hload]
  cases Cache.decode d key (m.payload key) <;> rfl

/-- **Every run keeps the cache coherent**, whatever text it starts with and whatever is refused on the
way, unless the text is changed behind its back: a document in memory is what the text stands for.  So
while loads are not refused a read answers the same as on a new cache. -/
theorem coherent_of_run (d : DocumentType α) (key : DocumentKey) (m : Memory)
    (steps : List (CacheStep α)) (hsteps : ∀ st ∈ steps, st.leavesText = true) :
    let r := ((start d key m).run d key steps).2
    (∀ a, r.cache.held = some a → Cache.decode d key (r.memory.payload key) = .ok a) ∧
    (r.memory.refused .load = false →
      (r.step d key .read).1 = ((r.step d key .restart).2.step d key .read).1) := by
  intro r
  have h : r.Coherent d key := (coherent_start m).run hsteps
  refine ⟨h, ?_⟩
  intro hload
  -- the load with which a new cache starts leaves the text alone, so both caches read the same text
  have hnew : (Cache.create d key r.memory).1.Coherent d key (r.memory.count .load) := by
    have hcreate := Cache.coherent_create d key r.memory
    rw [create_of_loading hload] at hcreate
    exact hcreate
  change CacheAnswer.value (r.cache.fetch d key r.memory).1 =
    .value ((Cache.create d key r.memory).1.fetch d key (Cache.create d key r.memory).2).1
  rw [create_of_loading hload, fetch_of_loading h hload, fetch_of_loading hnew hload]
  rfl

/-- A corrupt text, over which a write fails; it is deleted, and then no text is stored any more. -/
theorem coherent_of_corrupt_text :
    let key : DocumentKey := ⟨"numbers", "p"⟩
    let steps : List (CacheStep (List Int64)) :=
      [.write (.update (NumberChange.push 1).apply), .write .clear, .refuse .store true,
        .batch [.update (NumberChange.push 2).apply] [], .read]
    let r := ((start numbersDocument key (Memory.blank.setPayload key (some "[1,"))).run
      numbersDocument key steps).2
    (∀ st ∈ steps, st.leavesText = true) ∧
    ∀ ns, r.cache.held = some ns →
      Cache.decode numbersDocument key (r.memory.payload key) = .ok ns := by
  intro key steps r
  have hsteps : ∀ st ∈ steps, st.leavesText = true := by
    simp [steps, CacheStep.leavesText]
  exact ⟨hsteps, (coherent_of_run numbersDocument key _ steps hsteps).1⟩

end CacheRun

end StudyTime
