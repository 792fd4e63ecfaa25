/-
**A batch is as good as one command after the other.**

While commands are on their way it is already settled what will come of them: the answers that arrived,
followed by those that the writer would give if it went through the rest of the queue at once.  A turn of
the writer moves the first answer from one side to the other, or loses it together with the caller that
has gone away, and so it changes neither the outlook of those who wait nor the final state.  By
induction the turns may be taken in any order.  What is settled when the commands are issued is what
comes of writing them one after the other.

Main definitions:

* `Cache.serve` — the writer going through a queue at once;
* `Traffic.outlook`, `Traffic.outcome` — the answer that a caller will get, and the final state;
* `Cache.serial` — commands written one after the other.

Main results:

* `Traffic.outlook_work`, `Traffic.outcome_work` — **a turn of the writer changes neither of them**;
* `Traffic.course_eq` — hence every course ends in the outcome, with the outlook for answers;
* `CacheRun.batch_one_by_one` — **a batch answers, and ends, like its commands one by one**.
-/

import StudyTime.Cache.Numbers
import StudyTime.Cache.Run

set_option relaxedAutoImplicit false
set_option autoImplicit false

namespace StudyTime

/-! ### Turns -/

section Turns

variable {σ α : Type} [Backend σ] {d : DocumentType α} {key : DocumentKey}

namespace Traffic

/-- What the turns of the writer preserve holds when a caller has waited. -/
theorem await_keeps {P : Traffic σ α → Prop} (hwork : ∀ t, P t → P (t.work d key)) (n : Nat)
    (t : Traffic σ α) (h : P t) : P (t.await d key n).2 := by
  fun_induction Traffic.await d key n t with
  | case1 t r hr => exact h
  | case2 t hr hqueue => exact h
  | case3 t hr hqueue hlt ih => exact ih (hwork t h)

/-- What the turns of the writer preserve holds when nothing waits any more. -/
theorem drain_keeps {P : Traffic σ α → Prop} (hwork : ∀ t, P t → P (t.work d key))
    (t : Traffic σ α) (h : P t) : P (t.drain d key) := by
  fun_induction Traffic.drain d key t with
  | case1 t hqueue => exact h
  | case2 t hqueue hlt ih => exact ih (hwork t h)

/-- What the turns of the writer preserve holds in the end. -/
theorem course_keeps {P : Traffic σ α → Prop} (hwork : ∀ t, P t → P (t.work d key))
    (turns : List Turn) : ∀ t : Traffic σ α, P t → P (t.course d key turns).2 := by
  induction turns with
  | nil =>
      intro t h
      exact drain_keeps hwork t h
  | cons turn turns ih =>
      intro t h
      cases turn with
      | work => exact ih _ (hwork t h)
      | await n => exact ih _ (await_keeps hwork n t h)

end Traffic

end Turns

/-! ### The queue at once -/

namespace Cache

variable {σ α : Type} [Backend σ]

/-- The writer performs the commands one after the other, until a change aborts. -/
def serve (d : DocumentType α) (key : DocumentKey) :
    List (Nat × Command α) → Cache α → σ →
      List (Nat × Except CacheError (Reply α)) × Cache α × σ
  | [], c, s => ([], c, s)
  | (n, cmd) :: queue, c, s =>
    match perform d key cmd c s with
    | (none, c, s) => ([], c, s)
    | (some r, c, s) =>
      let (answers, c, s) := serve d key queue c s
      ((n, r) :: answers, c, s)

variable {d : DocumentType α} {key : DocumentKey} {n : Nat} {cmd : Command α}
  {queue : List (Nat × Command α)} {c c' : Cache α} {s s' : σ}

theorem serve_cons_of_none (h : perform d key cmd c s = (none, c', s')) :
    serve d key ((n, cmd) :: queue) c s = ([], c', s') := by
  rw [serve, h]

theorem serve_cons_of_some {r : Except CacheError (Reply α)}
    (h : perform d key cmd c s = (some r, c', s')) :
    serve d key ((n, cmd) :: queue) c s =
      ((n, r) :: (serve d key queue c' s').1, (serve d key queue c' s').2) := by
  rw [serve, h]

end Cache

section Answers

variable {α : Type}

theorem answerTo?_append (rs rs' : List (Nat × Except CacheError (Reply α))) (n : Nat) :
    answerTo? (rs ++ rs') n = (answerTo? rs n).or (answerTo? rs' n) := by
  simp only [answerTo?, List.find?_append]
  cases rs.find? fun a => a.1 == n <;> rfl

theorem answerTo?_cons_self (n : Nat) (r : Except CacheError (Reply α))
    (rs : List (Nat × Except CacheError (Reply α))) : answerTo? ((n, r) :: rs) n = some r := by
  simp [answerTo?]

theorem answerTo?_cons_of_ne {n m : Nat} (h : m ≠ n) (r : Except CacheError (Reply α))
    (rs : List (Nat × Except CacheError (Reply α))) :
    answerTo? ((m, r) :: rs) n = answerTo? rs n := by
  simp [answerTo?, h]

/-- Among answers listed under these numbers, one is found under each of them and no other. -/
theorem answerTo?_map (f : Nat → Except CacheError (Reply α)) (ns : List Nat) (n : Nat) :
    answerTo? (ns.map fun m => (m, f m)) n = if n ∈ ns then some (f n) else none := by
  induction ns with
  | nil => rfl
  | cons m ns ih =>
      rw [List.map_cons]
      by_cases h : m = n
      · rw [h, answerTo?_cons_self, if_pos List.mem_cons_self]
      · rw [answerTo?_cons_of_ne h, ih]
        simp [Ne.symm h]

end Answers

/-! ### What is settled -/

namespace Traffic

variable {σ α : Type}

@[simp] theorem send_stays (t : Traffic σ α) (n : Nat) (r : Except CacheError (Reply α)) :
    (t.send n r).stays = t.stays := by
  unfold send
  split <;> rfl

theorem send_answers (t : Traffic σ α) (n : Nat) (r : Except CacheError (Reply α)) :
    (t.send n r).answers = if t.stays n then t.answers ++ [(n, r)] else t.answers := by
  unfold send
  split <;> rfl

variable [Backend σ] (d : DocumentType α) (key : DocumentKey)

/-- What the writer does if it goes through the rest of the queue at once. -/
def ahead (t : Traffic σ α) : List (Nat × Except CacheError (Reply α)) × Cache α × σ :=
  t.cache.serve d key t.queue t.store

/-- The answer that the caller with this number will get. -/
def outlook (t : Traffic σ α) (n : Nat) : Except CacheError (Reply α) :=
  (answerTo? (t.answers ++ (t.ahead d key).1) n).getD (.error (.closed key))

/-- The final state of the cache and its store. -/
def outcome (t : Traffic σ α) : Cache α × σ := (t.ahead d key).2

/-- A turn of the writer: nothing waits, or the first command aborts, or it is answered. -/
theorem work_cases (t : Traffic σ α) :
    (t.queue = [] ∧ t.work d key = t) ∨
    (∃ n cmd queue c s, t.queue = (n, cmd) :: queue ∧
      t.cache.perform d key cmd t.store = (none, c, s) ∧
      t.work d key = { t with cache := c, store := s, queue := [] }) ∨
    (∃ n cmd queue r c s, t.queue = (n, cmd) :: queue ∧
      t.cache.perform d key cmd t.store = (some r, c, s) ∧
      t.work d key = { t with cache := c, store := s, queue := queue }.send n r) := by
  unfold work
  split
  next hqueue => exact .inl ⟨hqueue, rfl⟩
  next n cmd queue hqueue =>
    split
    next c s hperform => exact .inr (.inl ⟨n, cmd, queue, c, s, hqueue, hperform, rfl⟩)
    next r c s hperform => exact .inr (.inr ⟨n, cmd, queue, r, c, s, hqueue, hperform, rfl⟩)

@[simp] theorem send_ahead (t : Traffic σ α) (n : Nat) (r : Except CacheError (Reply α)) :
    (t.send n r).ahead d key = t.ahead d key := by
  unfold send
  split <;> rfl

/-- No turn of the writer makes a caller go away or come back. -/
theorem stays_work (t : Traffic σ α) : (t.work d key).stays = t.stays := by
  obtain ⟨-, hwork⟩ | ⟨n, cmd, queue, c, s, -, -, hwork⟩ | ⟨n, cmd, queue, r, c, s, -, -, hwork⟩ :=
    t.work_cases d key
  · rw [hwork]
  · rw [hwork]
  · rw [hwork, send_stays]

/-- **A turn of the writer does not change the final state.** -/
theorem outcome_work (t : Traffic σ α) : (t.work d key).outcome d key = t.outcome d key := by
  obtain ⟨-, hwork⟩ | ⟨n, cmd, queue, c, s, hqueue, hperform, hwork⟩ |
    ⟨n, cmd, queue, r, c, s, hqueue, hperform, hwork⟩ := t.work_cases d key
  · rw [hwork]
  · rw [hwork, outcome, outcome, ahead, ahead, hqueue, Cache.serve_cons_of_none hperform]
    rfl
  · rw [hwork, outcome, send_ahead, outcome, ahead, ahead, hqueue,
      Cache.serve_cons_of_some hperform]

/-- **A turn of the writer does not change the outlook** of a caller that has stayed. -/
theorem outlook_work (t : Traffic σ α) {n : Nat} (hn : t.stays n = true) :
    (t.work d key).outlook d key n = t.outlook d key n := by
  obtain ⟨-, hwork⟩ | ⟨m, cmd, queue, c, s, hqueue, hperform, hwork⟩ |
    ⟨m, cmd, queue, r, c, s, hqueue, hperform, hwork⟩ := t.work_cases d key
  · rw [hwork]
  · rw [hwork, outlook, outlook, ahead, ahead, hqueue, Cache.serve_cons_of_none hperform]
    rfl
  · rw [hwork, outlook, outlook, send_ahead, send_answers, ahead, ahead, hqueue,
      Cache.serve_cons_of_some hperform]
    by_cases hm : t.stays m = true
    · -- the answer has only moved to the other side
      simp only [hm, if_true, List.append_assoc, List.singleton_append]
    · -- the answer is lost, but it was not for this caller
      have hne : m ≠ n := fun h => hm (h ▸ hn)
      simp only [hm, Bool.false_eq_true, if_false, answerTo?_append, answerTo?_cons_of_ne hne]

/-- What is settled at one time is settled at a later one. -/
structure Continues (t t' : Traffic σ α) : Prop where
  stays_eq : t'.stays = t.stays
  /-- The final state is the same. -/
  outcome_eq : t'.outcome d key = t.outcome d key
  /-- Whoever has stayed gets the same answer. -/
  outlook_eq : ∀ {n}, t.stays n = true → t'.outlook d key n = t.outlook d key n

theorem Continues.refl (t : Traffic σ α) : Continues d key t t := ⟨rfl, rfl, fun _ => rfl⟩

theorem Continues.work {t t' : Traffic σ α} (h : Continues d key t t') :
    Continues d key t (t'.work d key) where
  stays_eq := by rw [stays_work, h.stays_eq]
  outcome_eq := by rw [outcome_work, h.outcome_eq]
  outlook_eq hn := by rw [outlook_work d key t' (by rw [h.stays_eq]; exact hn), h.outlook_eq hn]

/-- A caller that waits gets the answer that was settled. -/
theorem await_fst (n : Nat) (t : Traffic σ α) (hn : t.stays n = true) :
    (t.await d key n).1 = t.outlook d key n := by
  fun_induction Traffic.await d key n t with
  | case1 t r hr =>
      rw [outlook, answerTo?_append, hr]
      rfl
  | case2 t hr hqueue =>
      rw [outlook, answerTo?_append, hr, ahead, hqueue]
      rfl
  | case3 t hr hqueue hlt ih =>
      rw [ih (by rw [stays_work]; exact hn), outlook_work d key t hn]

/-- When nothing waits any more, the final state is reached. -/
theorem drain_eq (t : Traffic σ α) :
    ((t.drain d key).cache, (t.drain d key).store) = t.outcome d key := by
  fun_induction Traffic.drain d key t with
  | case1 t hqueue =>
      rw [outcome, ahead, hqueue]
      rfl
  | case2 t hqueue hlt ih => rw [ih, outcome_work]

/-- The numbers of the commands that are waited for, in order. -/
def awaited : List Turn → List Nat
  | [] => []
  | .work :: turns => awaited turns
  | .await n :: turns => n :: awaited turns

theorem mem_awaited (turns : List Turn) (n : Nat) : n ∈ awaited turns ↔ .await n ∈ turns := by
  induction turns with
  | nil => simp [awaited]
  | cons turn turns ih => cases turn <;> simp [awaited, ih]

theorem course_await (n : Nat) (turns : List Turn) (t : Traffic σ α) :
    t.course d key (.await n :: turns) =
      ((n, (t.await d key n).1) :: ((t.await d key n).2.course d key turns).1,
        ((t.await d key n).2.course d key turns).2) := rfl

/-- **Whatever the order of the turns**, those who wait get what was settled for them and the final
state is the one that was settled. -/
theorem course_eq (turns : List Turn) :
    ∀ t : Traffic σ α, (∀ n ∈ awaited turns, t.stays n = true) →
      (t.course d key turns).1 = ((awaited turns).map fun n => (n, t.outlook d key n)) ∧
      ((t.course d key turns).2.cache, (t.course d key turns).2.store) = t.outcome d key := by
  induction turns with
  | nil =>
      intro t _
      exact ⟨rfl, t.drain_eq d key⟩
  | cons turn turns ih =>
      intro t hstay
      -- the rest of the course starts where this turn ends
      have hrest : ∀ t', Continues d key t t' → (∀ n ∈ awaited turns, t.stays n = true) →
          (t'.course d key turns).1 = ((awaited turns).map fun n => (n, t.outlook d key n)) ∧
          ((t'.course d key turns).2.cache, (t'.course d key turns).2.store) = t.outcome d key := by
        intro t' ht' hturns
        obtain ⟨hanswers, hfinal⟩ := ih t' (by rw [ht'.stays_eq]; exact hturns)
        refine ⟨?_, hfinal.trans ht'.outcome_eq⟩
        rw [hanswers]
        refine List.map_congr_left ?_
        intro n hn
        rw [ht'.outlook_eq (hturns n hn)]
      cases turn with
      | work => exact hrest _ (Continues.refl d key t).work hstay
      | await n =>
          have hawait := await_keeps (P := Continues d key t) (fun _ h => h.work) n t
            (Continues.refl d key t)
          have hturns : ∀ m ∈ awaited turns, t.stays m = true := by
            intro m hm
            exact hstay m (List.mem_cons_of_mem _ hm)
          obtain ⟨hanswers, hfinal⟩ := hrest _ hawait hturns
          rw [course_await, awaited, List.map_cons, hanswers,
            t.await_fst d key n (hstay n List.mem_cons_self)]
          exact ⟨rfl, hfinal⟩

end Traffic

/-! ### One by one -/

namespace Cache

variable {σ α : Type} [Backend σ]

/-- Commands written one after the other. -/
def serial (d : DocumentType α) (key : DocumentKey) :
    List (Command α) → Cache α → σ → List (Except CacheError (Reply α)) × Cache α × σ
  | [], c, s => ([], c, s)
  | cmd :: cmds, c, s =>
    let (r, c, s) := write d key cmd c s
    let (rs, c, s) := serial d key cmds c s
    (r :: rs, c, s)

variable {d : DocumentType α} {key : DocumentKey} {c c' : Cache α} {s s' : σ}

/-- Without a writer nothing is written. -/
theorem write_of_not_writing (hc : c.writing = false) (cmd : Command α) :
    write d key cmd c s = (.error (.closed key), c, s) := by
  simp [write, hc]

theorem write_of_none {cmd : Command α} (hc : c.writing = true)
    (h : perform d key cmd c s = (none, c', s')) :
    write d key cmd c s = (.error (.closed key), c', s') := by
  simp [write, hc, h]

theorem write_of_some {cmd : Command α} {r : Except CacheError (Reply α)} (hc : c.writing = true)
    (h : perform d key cmd c s = (some r, c', s')) : write d key cmd c s = (r, c', s') := by
  simp [write, hc, h]

/-- A command that cannot abort leaves the writer alone. -/
theorem write_writing (d : DocumentType α) (key : DocumentKey) {cmd : Command α}
    (hcmd : ∀ change a, cmd = .update change → change a ≠ none) (c : Cache α) (s : σ) :
    (write d key cmd c s).2.1.writing = c.writing := by
  have hwriting := perform_writing d key c s cmd
  have hsome : (perform d key cmd c s).1.isSome = true := by
    cases cmd with
    | clear => rfl
    | update change =>
        simp only [perform]
        split
        next => rfl
        next a c' s' hfetch =>
          cases ha : change a with
          | none => exact absurd ha (hcmd change a rfl)
          | some a' => rfl
  cases hc : c.writing with
  | false => rw [write_of_not_writing hc, hc]
  | true =>
      cases hout : perform d key cmd c s with
      | mk r state =>
          obtain ⟨c', s'⟩ := state
          rw [hout, hc] at hwriting
          rw [hout] at hsome
          cases r with
          | none => cases hsome
          | some r =>
              rw [write_of_some hc hout]
              exact hwriting

theorem serial_cons (cmd : Command α) (cmds : List (Command α)) {r : Except CacheError (Reply α)}
    (h : write d key cmd c s = (r, c', s')) :
    serial d key (cmd :: cmds) c s =
      (r :: (serial d key cmds c' s').1, (serial d key cmds c' s').2) := by
  rw [serial, h]

theorem serial_append (cmds cmds' : List (Command α)) :
    ∀ (c : Cache α) (s : σ),
      serial d key (cmds ++ cmds') c s =
        ((serial d key cmds c s).1 ++
            (serial d key cmds' (serial d key cmds c s).2.1 (serial d key cmds c s).2.2).1,
          (serial d key cmds' (serial d key cmds c s).2.1 (serial d key cmds c s).2.2).2) := by
  induction cmds with
  | nil =>
      intro c s
      rfl
  | cons cmd cmds ih =>
      intro c s
      rw [List.cons_append, serial_cons cmd _ rfl, serial_cons cmd cmds rfl, ih]
      rfl

theorem length_serial (cmds : List (Command α)) :
    ∀ (c : Cache α) (s : σ), (serial d key cmds c s).1.length = cmds.length := by
  induction cmds with
  | nil =>
      intro c s
      rfl
  | cons cmd cmds ih =>
      intro c s
      rw [serial_cons cmd cmds rfl, List.length_cons, ih, List.length_cons]

/-- Without a writer every command finds the cache closed, and nothing happens. -/
theorem serial_of_not_writing (hc : c.writing = false) (cmds : List (Command α)) :
    serial d key cmds c s = (List.replicate cmds.length (.error (.closed key)), c, s) := by
  induction cmds with
  | nil => rfl
  | cons cmd cmds ih =>
      rw [serial_cons cmd cmds (write_of_not_writing hc cmd), ih, List.length_cons,
        List.replicate_succ]

/-- The writer that goes through a queue at once answers, and leaves behind, what comes of the
commands one by one.  Where it gave no answer the cache was closed. -/
theorem serve_numberFrom (d : DocumentType α) (key : DocumentKey) (cmds : List (Command α)) :
    ∀ (n : Nat) (c : Cache α) (s : σ), c.writing = true →
      (serve d key (numberFrom n cmds) c s).2 = (serial d key cmds c s).2 ∧
      ∀ i, i < cmds.length →
        (serial d key cmds c s).1[i]? =
          some ((answerTo? (serve d key (numberFrom n cmds) c s).1 (n + i)).getD
            (.error (.closed key))) := by
  induction cmds with
  | nil =>
      intro n c s _
      refine ⟨rfl, ?_⟩
      intro i hi
      exact absurd hi (Nat.not_lt_zero i)
  | cons cmd cmds ih =>
      intro n c s hc
      rw [numberFrom]
      have hwriting := perform_writing d key c s cmd
      cases hperform : perform d key cmd c s with
      | mk out state =>
          obtain ⟨c', s'⟩ := state
          rw [hperform, hc] at hwriting
          cases out with
          | none =>
              -- the writer is gone: the commands behind find the cache closed
              rw [serve_cons_of_none hperform, serial_cons cmd cmds (write_of_none hc hperform),
                serial_of_not_writing hwriting]
              refine ⟨rfl, ?_⟩
              intro i hi
              rw [List.length_cons] at hi
              rw [← List.replicate_succ, List.getElem?_replicate, if_pos hi]
              rfl
          | some r =>
              obtain ⟨hfinal, hanswers⟩ := ih (n + 1) c' s' hwriting
              rw [serve_cons_of_some hperform, serial_cons cmd cmds (write_of_some hc hperform)]
              refine ⟨hfinal, ?_⟩
              intro i hi
              dsimp only
              -- the answer to this command, or one of those behind it
              cases i with
              | zero =>
                  rw [Nat.add_zero n, answerTo?_cons_self, List.getElem?_cons_zero]
                  rfl
              | succ i =>
                  rw [List.getElem?_cons_succ, answerTo?_cons_of_ne (by omega),
                    hanswers i (Nat.lt_of_succ_lt_succ hi), Nat.add_assoc, Nat.add_comm 1 i]

/-- What is settled when commands are issued is what comes of them one by one. -/
theorem settled_issue (d : DocumentType α) (key : DocumentKey) (cmds : List (Command α))
    (stays : Nat → Bool) (c : Cache α) (s : σ) :
    (Traffic.issue cmds stays c s).outcome d key = (serial d key cmds c s).2 ∧
    ∀ i, i < cmds.length →
      (serial d key cmds c s).1[i]? = some ((Traffic.issue cmds stays c s).outlook d key i) := by
  cases hc : c.writing with
  | true =>
      obtain ⟨hfinal, hanswers⟩ := serve_numberFrom d key cmds 0 c s hc
      simp only [Traffic.issue, Traffic.outcome, Traffic.outlook, Traffic.ahead, hc, if_true,
        List.nil_append]
      simp only [Nat.zero_add] at hanswers
      exact ⟨hfinal, hanswers⟩
  | false =>
      rw [serial_of_not_writing hc]
      simp only [Traffic.issue, Traffic.outcome, Traffic.outlook, Traffic.ahead, hc,
        Bool.false_eq_true, if_false, List.nil_append]
      refine ⟨rfl, ?_⟩
      intro i hi
      rw [List.getElem?_replicate, if_pos hi]
      rfl

/-- **Commands that are issued together come out as they do one by one**, whatever the order of the
turns. -/
theorem interleave_eq (cmds : List (Command α)) (turns : List Turn) (c : Cache α) (s : σ) :
    interleave d key cmds turns c s =
      ((serial d key cmds c s).1.mapIdx fun n r => if Turn.awaits turns n then some r else none,
        (serial d key cmds c s).2) := by
  obtain ⟨hfinal, hsettled⟩ := settled_issue d key cmds (Turn.awaits turns) c s
  -- exactly those callers stay that are waited for
  have hstay : ∀ n ∈ Traffic.awaited turns,
      (Traffic.issue cmds (Turn.awaits turns) c s).stays n = true := by
    intro n hn
    simpa [Traffic.issue, Turn.awaits] using (Traffic.mem_awaited turns n).1 hn
  obtain ⟨hanswers, hend⟩ := Traffic.course_eq d key turns
    (Traffic.issue cmds (Turn.awaits turns) c s) hstay
  refine Prod.ext ?_ (hend.trans hfinal)
  simp only [interleave]
  rw [hanswers]
  refine List.ext_getElem? fun i => ?_
  rw [List.getElem?_map, List.getElem?_mapIdx]
  by_cases hi : i < cmds.length
  · rw [List.getElem?_range hi, hsettled i hi]
    simp [answerTo?_map, Turn.awaits, Traffic.mem_awaited]
  · have hrange : (List.range cmds.length)[i]? = none := by simp; omega
    have hserial : (serial d key cmds c s).1[i]? = none := by simp [length_serial]; omega
    rw [hrange, hserial]
    rfl

/-- From the first change that aborts onward every command finds the cache closed, and nothing more
happens. -/
theorem serial_abort {before : List (Command α)} (after : List (Command α)) {change : α → Option α} {a : α}
    {c₁ c₂ : Cache α} {s₁ s₂ : σ} (hbefore : (serial d key before c s).2 = (c₁, s₁))
    (hwriting : c₁.writing = true) (hfetch : fetch d key c₁ s₁ = (.ok a, c₂, s₂))
    (hchange : change a = none) :
    serial d key (before ++ .update change :: after) c s =
      ((serial d key before c s).1 ++ List.replicate (after.length + 1) (.error (.closed key)),
        { c₂ with writing := false }, s₂) := by
  have hperform : perform d key (.update change) c₁ s₁ =
      (none, { c₂ with writing := false }, s₂) := by
    simp only [perform, hfetch, hchange]
  rw [serial_append, hbefore, serial_cons _ after (write_of_none hwriting hperform),
    serial_of_not_writing (c := { c₂ with writing := false }) rfl, ← List.replicate_succ]

end Cache

/-! ### Runs -/

namespace CacheRun

variable {α : Type} (d : DocumentType α) (key : DocumentKey)

/-- Commands as steps of their own. -/
theorem run_writes (cmds : List (Command α)) :
    ∀ r : CacheRun α,
      r.run d key (cmds.map .write) =
        ((r.cache.serial d key cmds r.memory).1.map .written,
          ⟨(r.cache.serial d key cmds r.memory).2.1, (r.cache.serial d key cmds r.memory).2.2⟩) := by
  induction cmds with
  | nil =>
      intro r
      rfl
  | cons cmd cmds ih =>
      intro r
      rw [List.map_cons, run_cons, ih, Cache.serial_cons cmd cmds rfl]
      rfl

/-- **A batch answers, and ends, like its commands one by one.**  This is so for the callers that wait
in any order while the others have gone away, and for the writer and the callers taking turns in any
order.  From the first change that aborts onward every command finds the cache closed, and what the
load before it left behind is final. -/
theorem batch_one_by_one (r : CacheRun α) (cmds : List (Command α)) :
    ∃ answers : List (Except CacheError (Reply α)),
      (r.run d key (cmds.map .write)).1 = answers.map .written ∧
      (∀ awaited : List Nat,
        r.step d key (.batch cmds awaited) =
          (.many (answers.mapIdx fun n a => if n ∈ awaited then some a else none),
            (r.run d key (cmds.map .write)).2)) ∧
      (∀ turns : List Turn,
        r.cache.interleave d key cmds turns r.memory =
          (answers.mapIdx fun n a => if .await n ∈ turns then some a else none,
            (r.run d key (cmds.map .write)).2.cache, (r.run d key (cmds.map .write)).2.memory)) ∧
      ∀ (before after : List (Command α)) (change : α → Option α) (a : α) (c : Cache α)
        (m : Memory),
        cmds = before ++ .update change :: after →
        (r.run d key (before.map .write)).2.cache.writing = true →
        (r.run d key (before.map .write)).2.cache.fetch d key
          (r.run d key (before.map .write)).2.memory = (.ok a, c, m) →
        change a = none →
        (∀ n, before.length ≤ n → n < cmds.length → answers[n]? = some (.error (.closed key))) ∧
        (r.run d key (cmds.map .write)).2 = ⟨{ c with writing := false }, m⟩ := by
  have hinterleave : ∀ turns : List Turn,
      r.cache.interleave d key cmds turns r.memory =
        ((r.cache.serial d key cmds r.memory).1.mapIdx fun n a =>
          if .await n ∈ turns then some a else none,
          (r.cache.serial d key cmds r.memory).2) := by
    intro turns
    simp only [Cache.interleave_eq, Turn.awaits, List.contains_iff_mem]
  refine ⟨(r.cache.serial d key cmds r.memory).1, by rw [run_writes], ?_, ?_, ?_⟩
  · intro awaited
    rw [run_writes, step, Cache.batch, hinterleave]
    simp
  · intro turns
    rw [run_writes, hinterleave]
  · intro before after change a c m hcmds hwriting hfetch hchange
    rw [run_writes] at hwriting hfetch
    have habort := Cache.serial_abort after rfl hwriting hfetch hchange
    rw [run_writes, hcmds, habort]
    refine ⟨?_, rfl⟩
    intro n hbefore hlt
    rw [List.length_append, List.length_cons] at hlt
    rw [List.getElem?_append_right (by rw [Cache.length_serial]; exact hbefore),
      List.getElem?_replicate, if_pos (by rw [Cache.length_serial]; omega)]

/-- A change that aborts, with a command behind it whose caller waits first. -/
theorem batch_abort_clear :
    ∃ answers : List (Except CacheError (Reply (List Int64))),
      (CacheRun.step numbersDocument ⟨"numbers", "p"⟩ ⟨⟨some [7], true⟩, .blank⟩
        (.batch [.update NumberChange.abort.apply, .clear] [1, 0])).1 =
          .many (answers.mapIdx fun n a => if n ∈ [1, 0] then some a else none) ∧
      answers[1]? = some (.error (.closed ⟨"numbers", "p"⟩)) := by
  obtain ⟨answers, -, hbatch, -, habort⟩ := batch_one_by_one numbersDocument ⟨"numbers", "p"⟩
    ⟨⟨some [7], true⟩, .blank⟩ [.update NumberChange.abort.apply, .clear]
  refine ⟨answers, by rw [hbatch], ?_⟩
  exact (habort [] [.clear] NumberChange.abort.apply [7] ⟨some [7], true⟩ .blank rfl rfl rfl rfl).1 1
    (by decide) (by decide)

end CacheRun

end StudyTime
