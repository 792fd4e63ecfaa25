/-
**Topics commute.**

A session that is posted to a ledger changes the record of its own topic, and what it makes of it depends
on this record and on the session, not on the rest of the ledger: also whether the record has become stale
is seen from the record itself.  So from a sequence of postings a topic gets what its own ones make of its
record, wherever those of other topics stand in between, and two sequences in which every topic has the
same ones in the same order lead to the same ledger.

Main definitions:

* `Posting`, `Ledger.post`, `Ledger.postAll` — sessions that are posted to a ledger;
* `history`, `SameHistories` — the postings of a topic, and sequences that have the same for every topic;
* `Posting.record`, `recordAfter` — what postings make of the record of their topic;
* `Ledger.Named` — ledgers of which the records name the topics that they are kept under;
* `TopicsCommute` — what is said of two sequences of postings.

Main results:

* `Ledger.get?_postAll` — **the record of a topic is made by the history of the topic**;
* `topics_commute` — **sequences with the same histories lead to the same ledger**, with the topics in the
  order of their bytes and the same text.
-/

import StudyTime.Proofs.Documents

set_option relaxedAutoImplicit false
set_option autoImplicit false

namespace StudyTime

/-! ### Postings -/

/-- A session that is posted to a ledger, with the staleness limit of that time. -/
structure Posting where
  topic : String
  duration : UInt64
  instant : Int64
  limit : UInt64
  deriving DecidableEq, Repr

/-- The postings of a topic, in order. -/
def history (topic : String) (ps : List Posting) : List Posting := ps.filter fun p => p.topic = topic

/-- Every topic has the same postings in the same order, so the sequences are two ways to interleave
them. -/
def SameHistories (ps qs : List Posting) : Prop := ∀ topic, history topic ps = history topic qs

/-- What a posting makes of the record of its topic, or of its absence. -/
def Posting.record (p : Posting) : Option TopicRecord → TopicRecord
  | some r => r.merge p.duration p.instant p.limit
  | none => ⟨p.topic, p.duration, p.instant⟩

/-- What postings make of the record of their topic, which may be absent. -/
def recordAfter (r : Option TopicRecord) (ps : List Posting) : Option TopicRecord :=
  ps.foldl (fun r p => some (p.record r)) r

namespace Ledger

/-- The ledger after a posting. -/
def post (l : Ledger) (p : Posting) : Ledger := l.recordSession p.topic p.duration p.instant p.limit

/-- The ledger after postings. -/
def postAll (l : Ledger) (ps : List Posting) : Ledger := ps.foldl post l

/-- Every record names the topic that it is kept under. -/
def Named (l : Ledger) : Prop := ∀ topic r, l.get? topic = some r → r.topic = topic

/-! ### One topic -/

theorem sessionRecord_eq (l : Ledger) (p : Posting) :
    l.sessionRecord p.topic p.duration p.instant p.limit = p.record (l.get? p.topic) := by
  unfold sessionRecord Posting.record
  cases l.get? p.topic <;> rfl

/-- A posting makes of the record of its topic what does not depend on the other ones, and leaves these as
they are. -/
theorem get?_post (l : Ledger) (p : Posting) (topic : String) :
    (l.post p).get? topic = if p.topic = topic then some (p.record (l.get? topic)) else l.get? topic := by
  rw [post, get?_recordSession, sessionRecord_eq]
  by_cases htopic : p.topic = topic
  · rw [if_pos htopic, if_pos htopic.symm, htopic]
  · rw [if_neg htopic, if_neg (Ne.symm htopic)]

/-- **The record of a topic is made by the history of the topic**, from the record at the start. -/
theorem get?_postAll (topic : String) (ps : List Posting) :
    ∀ l : Ledger, (l.postAll ps).get? topic = recordAfter (l.get? topic) (history topic ps) := by
  induction ps with
  | nil => exact fun l => rfl
  | cons p ps ih =>
      intro l
      -- the rest starts from the ledger after the first posting
      change ((l.post p).postAll ps).get? topic = _
      rw [ih, get?_post]
      by_cases htopic : p.topic = topic
      · have hhistory : history topic (p :: ps) = p :: history topic ps := by
          simp [history, htopic]
        rw [if_pos htopic, hhistory]
        rfl
      · have hhistory : history topic (p :: ps) = history topic ps := by
          simp [history, htopic]
        rw [if_neg htopic, hhistory]

/-- The record of a topic depends on nothing but its record at the start and its own history. -/
theorem get?_postAll_congr {l l' : Ledger} {topic : String} {ps qs : List Posting}
    (hl : l.get? topic = l'.get? topic) (hps : history topic ps = history topic qs) :
    (l.postAll ps).get? topic = (l'.postAll qs).get? topic := by
  rw [get?_postAll, get?_postAll, hl, hps]

/-- A topic without postings keeps its record. -/
theorem get?_postAll_of_absent {l : Ledger} {topic : String} {ps : List Posting}
    (h : ∀ p ∈ ps, p.topic ≠ topic) : (l.postAll ps).get? topic = l.get? topic := by
  have hhistory : history topic ps = [] :=
    List.filter_eq_nil_iff.2 fun p hp => by simpa using h p hp
  rw [get?_postAll, hhistory]
  rfl

/-! ### All topics -/

/-- Sequences with the same histories lead to the same ledger. -/
theorem postAll_eq {ps qs : List Posting} (h : SameHistories ps qs) (l : Ledger) :
    l.postAll ps = l.postAll qs :=
  Ledger.ext (SortedMap.ext fun topic => get?_postAll_congr rfl (h topic))

theorem Named.post {l : Ledger} (h : l.Named) (p : Posting) : (l.post p).Named := by
  intro topic r hr
  rw [get?_post] at hr
  by_cases htopic : p.topic = topic
  · rw [if_pos htopic, Option.some_inj] at hr
    rw [← hr]
    cases hget : l.get? topic with
    | none => exact htopic
    | some r' => exact h topic r' hget
  · rw [if_neg htopic] at hr
    exact h topic r hr

theorem Named.postAll (ps : List Posting) : ∀ {l : Ledger}, l.Named → (l.postAll ps).Named := by
  induction ps with
  | nil => exact fun h => h
  | cons p ps ih => exact fun h => ih (h.post p)

/-- No topic is listed twice. -/
theorem nodup_toList (l : Ledger) : (l.toList.map Prod.fst).Nodup :=
  List.pairwise_map.2 (l.topics.pairwise_toList.imp KeyOrder.ne_of_lt)

end Ledger

/-- What is said of two sequences of postings to a ledger. -/
structure TopicsCommute (l : Ledger) (ps qs : List Posting) : Prop where
  /-- They lead to the same ledger. -/
  ledger_eq : l.postAll ps = l.postAll qs
  /-- The topics are listed in the same order. -/
  topics_eq : (l.postAll ps).toList.map Prod.fst = (l.postAll qs).toList.map Prod.fst
  /-- It is the order of their bytes. -/
  increasing : ((l.postAll ps).toList.map Prod.fst).Pairwise fun a b => BytesBefore (utf8 a) (utf8 b)
  nodup : ((l.postAll ps).toList.map Prod.fst).Nodup
  /-- The text of the ledger is the same. -/
  compact_eq : Ledger.codec.compact (l.postAll ps) = Ledger.codec.compact (l.postAll qs)
  /-- The record of a topic is made from its record at the start by its history. -/
  record_eq : ∀ topic, (l.postAll ps).get? topic = recordAfter (l.get? topic) (history topic ps)
  /-- Nothing else matters to it, neither other topics of the ledger nor other postings. -/
  depends_only : ∀ (l' : Ledger) (ps' : List Posting) (topic : String),
    l'.get? topic = l.get? topic → history topic ps' = history topic ps →
    (l'.postAll ps').get? topic = (l.postAll ps).get? topic
  /-- A topic without postings keeps its record, whatever topic the record names. -/
  untouched : ∀ topic, (∀ p ∈ ps, p.topic ≠ topic) → (l.postAll ps).get? topic = l.get? topic
  named : l.Named → (l.postAll ps).Named

/-- **Topics commute**: two sequences of postings with the same histories lead from any ledger to the same
one. -/
theorem topics_commute (l : Ledger) {ps qs : List Posting} (h : SameHistories ps qs) :
    TopicsCommute l ps qs := by
  have hledger : l.postAll ps = l.postAll qs := l.postAll_eq h
  exact {
    ledger_eq := hledger
    topics_eq := by rw [hledger]
    increasing := List.pairwise_map.2 (l.postAll ps).toList_increasing
    nodup := (l.postAll ps).nodup_toList
    compact_eq := by rw [hledger]
    record_eq := fun topic => l.get?_postAll topic ps
    depends_only := fun _ _ _ hl hps => Ledger.get?_postAll_congr hl hps
    untouched := fun _ => Ledger.get?_postAll_of_absent
    named := fun h => h.postAll ps }

/-- A record that names another topic, a clock that goes back, and a record that has become stale. -/
theorem topics_commute_back_in_time :
    let l : Ledger := ⟨(∅ : SortedMap String TopicRecord).insert "b" ⟨"x", 10, 100⟩⟩
    let ps : List Posting := [⟨"é", 5, 50, 0⟩, ⟨"b", 7, 90, 0⟩, ⟨"é", 1, 1000, 10⟩, ⟨"a", 2, 3, 4⟩]
    let qs : List Posting := [⟨"a", 2, 3, 4⟩, ⟨"b", 7, 90, 0⟩, ⟨"é", 5, 50, 0⟩, ⟨"é", 1, 1000, 10⟩]
    SameHistories ps qs ∧ TopicsCommute l ps qs ∧
      (l.postAll qs).toList =
        [("a", ⟨"a", 2, 3⟩), ("b", ⟨"x", 17, 90⟩), ("é", ⟨"é", 1, 1000⟩)] := by
  intro l ps qs
  have hsame : SameHistories ps qs := by
    intro topic
    by_cases ha : "a" = topic
    · subst ha
      rfl
    · by_cases hb : "b" = topic
      · subst hb
        rfl
      · simp [history, ps, qs, List.filter_cons, ha, hb]
  exact ⟨hsame, topics_commute l hsame, rfl⟩

end StudyTime
