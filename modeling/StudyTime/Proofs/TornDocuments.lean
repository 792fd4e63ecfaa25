/-
**Torn documents are detected.**

The texts of topic records, ledgers, sessions and settings are objects, so a text of which the end is
lost is reported as ended, and none is taken for another value.  A cache over such a text cannot load it:
it denies every read and every change, whatever store it stands in front of, and the text stays there for
somebody to rescue it.  A settings file of which the end is lost is opened with the usual settings, and
reading it again changes nothing.

Main definitions:

* `cut` — a text of which the end is lost;
* `DetectsTears` — printing and parsing by which such a text is reported as ended;
* `Cache.Request`, `Cache.answerAll` — reads and changes in front of any store;
* `Cache.Bars` — a text that keeps a cache from its document.

Main results:

* `Json.Codec.Breaks.bars` — **what is left of a written document keeps a cache from loading it**;
* `SettingsFile.openStore_torn`, `SettingsFile.reload_torn` — the same file opened and read again;
* `torn_documents_detected` — **no document is taken for another when its end is lost**.
-/

import StudyTime.Service
import StudyTime.Proofs.Json.Torn
import StudyTime.Proofs.SettingsFile
import StudyTime.Proofs.Cache.Unreadable

set_option relaxedAutoImplicit false
set_option autoImplicit false

namespace StudyTime

open Json (ReadError)

/-! ### Written documents -/

/-- What is left of a text when its characters from the `n`-th on are lost. -/
def cut (n : Nat) (text : String) : String := String.ofList (text.toList.take n)

/-- A printed text of which the end is lost is reported as ended. -/
def DetectsTears {α : Type} (print : α → String) (parse : String → Except ReadError α) : Prop :=
  ∀ (a : α) (n : Nat), n < (print a).length → parse (cut n (print a)) = .error .ended

section Codecs

variable {α : Type} {c : Json.Codec α}

theorem Json.Codec.Breaks.parse_cut (h : c.Breaks) {l : Json.Layout} (hl : l.IsBlank) (a : α) {n : Nat}
    (hn : n < (String.ofList ((c.tree a).write l 0)).length) :
    c.parse (cut n (String.ofList ((c.tree a).write l 0))) = .error .ended := by
  rw [cut, String.toList_ofList]
  exact h.parse_torn hl a (.take (by simpa using hn))

theorem Json.Codec.Breaks.detectsTears_compact (h : c.Breaks) : DetectsTears c.compact c.parse :=
  fun a _ hn => h.parse_cut Json.Layout.isBlank_compact a hn

theorem Json.Codec.Breaks.detectsTears_spread (h : c.Breaks) : DetectsTears c.spread c.parse :=
  fun a _ hn => h.parse_cut Json.Layout.isBlank_spread a hn

end Codecs

/-! ### The documents -/

theorem TopicRecord.breaks_codec : TopicRecord.codec.Breaks := by
  refine schema.breaks_codecOf fun f => ?_
  cases f with
  | topic => exact ⟨Json.Codec.lawful_text, Json.Codec.breaks_text.exhausts⟩
  | total => exact ⟨Json.Codec.lawful_uint64, Json.Codec.exhausts_uint64⟩
  | updated => exact ⟨Json.Codec.lawful_int64, Json.Codec.exhausts_int64⟩

theorem Ledger.breaks_codec : Ledger.codec.Breaks :=
  schema.breaks_codecOf fun _ => ⟨TopicRecord.lawful_codec.table,
    (TopicRecord.breaks_codec.exhausts.table TopicRecord.lawful_codec).exhausts⟩

theorem SessionId.breaks_codec : SessionId.codec.Breaks := Json.Codec.breaks_text.refine _ _

theorem Session.breaks_codec : Session.codec.Breaks := by
  refine schema.breaks_codecOf fun f => ?_
  cases f with
  | id => exact ⟨SessionId.lawful_codec, SessionId.breaks_codec.exhausts⟩
  | profile => exact ⟨Profile.lawful_codec, Json.Codec.breaks_text.exhausts⟩
  | topic => exact ⟨Json.Codec.lawful_text, Json.Codec.breaks_text.exhausts⟩
  | started => exact ⟨Json.Codec.lawful_int64, Json.Codec.exhausts_int64⟩
  | stopped => exact ⟨Json.Codec.lawful_int64, Json.Codec.exhausts_int64⟩
  | active => exact ⟨Json.Codec.lawful_uint64, Json.Codec.exhausts_uint64⟩

theorem TimeOfDay.breaks_codec : TimeOfDay.codec.Breaks := Json.Codec.breaks_text.refine _ _

theorem LearningSettings.breaks_codec : LearningSettings.codec.Breaks :=
  schema.breaks_codecOf fun _ => ⟨Json.Codec.lawful_uint64, Json.Codec.exhausts_uint64⟩

theorem SurveySettings.breaks_codec : SurveySettings.codec.Breaks := by
  refine schema.breaks_codecOf fun f => ?_
  cases f with
  | windowStart => exact ⟨TimeOfDay.lawful_codec, TimeOfDay.breaks_codec.exhausts⟩
  | windowEnd => exact ⟨TimeOfDay.lawful_codec, TimeOfDay.breaks_codec.exhausts⟩
  | cooldown => exact ⟨Json.Codec.lawful_uint64, Json.Codec.exhausts_uint64⟩
  | threshold => exact ⟨Json.Codec.lawful_uint64, Json.Codec.exhausts_uint64⟩

theorem Settings.breaks_codec : Settings.codec.Breaks := by
  refine schema.breaks_codecOf fun f => ?_
  cases f with
  | learning => exact ⟨LearningSettings.lawful_codec, LearningSettings.breaks_codec.exhausts⟩
  | survey => exact ⟨SurveySettings.lawful_codec, SurveySettings.breaks_codec.exhausts⟩

/-! ### A cache in front of any store -/

namespace Cache

variable {α : Type}

/-- What can be asked of a cached document without deleting it. -/
inductive Request (α : Type) where
  | read
  | update (change : α → Option α)

section Requests

variable {σ : Type} [Backend σ] (d : DocumentType α) (key : DocumentKey)

/-- Answers a request. -/
def answer (c : Cache α) (s : σ) : Request α → Except CacheError Unit × Cache α × σ
  | .read =>
    let (v, c, s) := c.fetch d key s
    (v.map fun _ => (), c, s)
  | .update change =>
    let (v, c, s) := c.write d key (.update change) s
    (v.map fun _ => (), c, s)

/-- Answers requests one after the other. -/
def answerAll (c : Cache α) (s : σ) : List (Request α) → List (Except CacheError Unit) × Cache α × σ
  | [] => ([], c, s)
  | request :: requests =>
    let (v, c, s) := c.answer d key s request
    let (vs, c, s) := answerAll c s requests
    (v :: vs, c, s)

end Requests

/-- The load failed: for this reason, if it is not the store that failed. -/
def FailsToLoad (key : DocumentKey) (f : Failure) (v : Except CacheError Unit) (sound : Prop) : Prop :=
  ∃ g, v = .error (.load key g) ∧ (sound → g = f)

section Denied

variable {σ : Type} [Backend σ] [LawfulStore σ] {d : DocumentType α} {key : DocumentKey} {f : Failure}
  {s : σ}

/-- A text that stands for no document is not loaded. -/
theorem fetch_of_undecoded (h : decode d key ((kept s).payload key) = .error f) (writing : Bool) :
    ∃ g s', fetch d key ⟨none, writing⟩ s = (.error (.load key g), ⟨none, writing⟩, s') ∧
      kept s' = kept s ∧ (Sound s → g = f ∧ Sound s') := by
  have hload := LawfulStore.load key s
  generalize hout : Backend.load key s = out at hload
  obtain ⟨v, s'⟩ := out
  cases v with
  | error g =>
      refine ⟨g, s', by simp only [fetch, hout], hload.kept_eq, ?_⟩
      intro hs
      cases (hload.sound hs).1
  | ok text =>
      cases hload.found rfl
      exact ⟨f, s', by simp only [fetch, hout, h], hload.kept_eq, fun hs => ⟨rfl, (hload.sound hs).2⟩⟩

/-- **Over a text that stands for no document every request is denied.** -/
theorem answer_of_undecoded (h : decode d key ((kept s).payload key) = .error f)
    (request : Request α) :
    ∃ v s', answer d key ⟨none, true⟩ s request = (v, ⟨none, true⟩, s') ∧ kept s' = kept s ∧
      FailsToLoad key f v (Sound s) ∧ (Sound s → Sound s') := by
  obtain ⟨g, s', hfetch, hkept, hsound⟩ := fetch_of_undecoded h true
  refine ⟨.error (.load key g), s', ?_, hkept, ⟨g, rfl, fun hs => (hsound hs).1⟩,
    fun hs => (hsound hs).2⟩
  cases request with
  | read =>
      simp only [answer, hfetch]
      rfl
  | update change =>
      simp only [answer, write, perform, hfetch]
      rfl

theorem answerAll_of_undecoded (requests : List (Request α)) :
    ∀ {s : σ}, decode d key ((kept s).payload key) = .error f →
      ∃ vs s', answerAll d key ⟨none, true⟩ s requests = (vs, ⟨none, true⟩, s') ∧
        vs.length = requests.length ∧ kept s' = kept s ∧
        ∀ v ∈ vs, FailsToLoad key f v (Sound s) := by
  induction requests with
  | nil =>
      intro s _
      exact ⟨[], s, rfl, rfl, rfl, fun v hv => by cases hv⟩
  | cons request requests ih =>
      intro s h
      obtain ⟨v, s₁, hanswer, hkept₁, hv, hsound⟩ := answer_of_undecoded h request
      obtain ⟨vs, s', hanswers, hlength, hkept, hvs⟩ := ih (s := s₁) (by rw [hkept₁]; exact h)
      refine ⟨v :: vs, s', by simp only [answerAll, hanswer, hanswers], congrArg (· + 1) hlength,
        hkept.trans hkept₁, ?_⟩
      intro w hw
      rcases List.mem_cons.1 hw with rfl | hw
      · exact hv
      · obtain ⟨g, hg, hreason⟩ := hvs w hw
        exact ⟨g, hg, fun hs => hreason (hsound hs)⟩

end Denied

/-- A text that keeps a cache from its document, for this reason.  The cache is a new one, in front of a
store that keeps the text. -/
structure Bars (d : DocumentType α) (key : DocumentKey) (text : String) (f : Failure) : Prop where
  decode_eq : decode d key (some text) = .error f
  /-- In memory, whatever else is done with the store or the cache, as long as the document is not
  deleted. -/
  untouched : ∀ (m : Memory) (steps : List (CacheStep α)), m.payload key = some text →
    (∀ st ∈ steps, st.leavesText = true) →
    CacheRun.Throughout d key (fun q st => st.clears = true → q.memory.refused .delete = true)
      (CacheRun.start d key m) steps →
    CacheRun.Untouched d key (CacheRun.start d key m) steps ∧
      ((CacheRun.start d key m).run d key steps).2.memory.payload key = some text
  /-- In any store, which stays as it is. -/
  denied : ∀ {σ : Type} [Backend σ] [LawfulStore σ] (s : σ) (requests : List (Request α)),
    (kept s).payload key = some text →
    ∃ vs s', answerAll d key (create d key s).1 (create d key s).2 requests = (vs, ⟨none, true⟩, s') ∧
      vs.length = requests.length ∧ kept s' = kept s ∧ ∀ v ∈ vs, FailsToLoad key f v (Sound s)

theorem bars_of_decode {d : DocumentType α} {key : DocumentKey} {text : String} {f : Failure}
    (h : decode d key (some text) = .error f) : Bars d key text f := by
  refine ⟨h, ?_, ?_⟩
  · intro m steps htext hsteps hclears
    have hload : LoadFails d key m := .inr ⟨f, by rw [htext]; exact h⟩
    obtain ⟨g, hfetch⟩ := hload.fetches true
    have hstart : CacheRun.start d key m = ⟨⟨none, true⟩, m.count .load⟩ := by
      simp only [CacheRun.start, create, hfetch.eq]
    have hcache : (CacheRun.start d key m).cache = ⟨none, true⟩ := by rw [hstart]
    have hpayload : (CacheRun.start d key m).memory.payload key = some text := by
      rw [hstart]
      exact htext
    have huntouched := CacheRun.untouched_run hcache hsteps
      (CacheRun.throughout_loadFails hcache (by rw [hpayload]; exact h) hsteps hclears)
    exact ⟨huntouched, huntouched.payload_eq.trans hpayload⟩
  · intro σ _ _ s requests htext
    have hdecode : decode d key ((kept s).payload key) = .error f := by rw [htext]; exact h
    obtain ⟨g, s₁, hfetch, hkept₁, hsound⟩ := fetch_of_undecoded hdecode true
    obtain ⟨vs, s', hanswers, hlength, hkept, hvs⟩ :=
      answerAll_of_undecoded requests (s := s₁) (by rw [hkept₁]; exact hdecode)
    refine ⟨vs, s', by simp only [create, hfetch, hanswers], hlength, hkept.trans hkept₁, ?_⟩
    intro v hv
    obtain ⟨g, hg, hreason⟩ := hvs v hv
    exact ⟨g, hg, fun hs => hreason (hsound hs).2⟩

end Cache

/-- What is left of the text for a value keeps a cache from loading the document. -/
def BarsWhenTorn {α : Type} (d : DocumentType α) : Prop :=
  ∀ (a : α) (text : String), d.encode a = some text → ∀ n < text.length, ∀ key : DocumentKey,
    Cache.Bars d key (cut n text) (.inside (.decode key.cache) (.document .ended))

/-- **What is left of a written document keeps a cache from loading it.** -/
theorem Json.Codec.Breaks.bars {α : Type} {c : Json.Codec α} (h : c.Breaks) (hc : c.Lawful) (blank : α) :
    BarsWhenTorn (c.documentType hc blank) := by
  intro a text htext n hn key
  cases htext
  refine Cache.bars_of_decode ?_
  have hparse := h.detectsTears_compact a n hn
  simp only [Cache.decode, documentType, hparse]

/-! ### A settings file -/

namespace SettingsFile

variable {f : SettingsFile} {s : Settings} {n : Nat}

/-- Where the end of the file is lost the usual settings are opened. -/
theorem openStore_torn (hn : n < (Settings.codec.spread s).length)
    (hf : f.state = .bytes (cut n (Settings.codec.spread s)).toUTF8) :
    f.openStore = (.ok (), { f with held := some .usual }) := by
  have hparse := Settings.breaks_codec.detectsTears_spread s n hn
  simp only [openStore, opened, hf, FileState.text?_bytes, hparse]

/-- Where the end of the file is lost the settings held stay. -/
theorem reload_torn (hn : n < (Settings.codec.spread s).length)
    (hf : f.state = .bytes (cut n (Settings.codec.spread s)).toUTF8) :
    f.reload = (.error (.document .ended), f) := by
  have hparse := Settings.breaks_codec.detectsTears_spread s n hn
  simp only [reload, reread, hf, FileState.text?_bytes, hparse]

end SettingsFile

/-! ### All documents -/

/-- **No document is taken for another when its end is lost.**  What is left of the text for a topic
record, a ledger, a session or settings is reported as ended, wherever it was cut off.  A cache over it
denies what is asked, and leaves it where it is; a settings file is opened with the usual settings, and
read again to no effect. -/
theorem torn_documents_detected :
    DetectsTears TopicRecord.codec.compact TopicRecord.codec.parse ∧
    DetectsTears Ledger.codec.compact Ledger.codec.parse ∧
    DetectsTears Session.codec.compact Session.codec.parse ∧
    DetectsTears Settings.codec.compact Settings.codec.parse ∧
    DetectsTears Settings.codec.spread Settings.codec.parse ∧
    BarsWhenTorn Ledger.document ∧
    (∀ blank, BarsWhenTorn (TopicRecord.codec.documentType TopicRecord.lawful_codec blank)) ∧
    (∀ blank, BarsWhenTorn (Session.codec.documentType Session.lawful_codec blank)) ∧
    ∀ (s : Settings) (n : Nat) (f : SettingsFile), n < (Settings.codec.spread s).length →
      f.state = .bytes (cut n (Settings.codec.spread s)).toUTF8 →
      f.openStore = (.ok (), { f with held := some .usual }) ∧
      f.reload = (.error (.document .ended), f) :=
  ⟨TopicRecord.breaks_codec.detectsTears_compact, Ledger.breaks_codec.detectsTears_compact,
    Session.breaks_codec.detectsTears_compact, Settings.breaks_codec.detectsTears_compact,
    Settings.breaks_codec.detectsTears_spread, Ledger.breaks_codec.bars Ledger.lawful_codec .blank,
    TopicRecord.breaks_codec.bars TopicRecord.lawful_codec,
    Session.breaks_codec.bars Session.lawful_codec,
    fun _ _ _ hn hf => ⟨SettingsFile.openStore_torn hn hf, SettingsFile.reload_torn hn hf⟩⟩

/-- A ledger cut off behind the first digit of a number: it is not parsed, and a cache over it denies to
read it and to record a session.  Settings cut off behind their first line are opened as the usual ones. -/
theorem torn_documents_detected_inside_number :
    let left := cut 73 (Ledger.codec.compact ⟨(∅ : SortedMap String TopicRecord).insert "a" ⟨"a", 12, 3⟩⟩)
    let m := Memory.blank.setPayload (ledgerKey "p") (some left)
    let opened := Cache.create Ledger.document (ledgerKey "p") m
    let change (l : Ledger) : Option Ledger := some (l.recordSession "a" 1 4 0)
    let f : SettingsFile := { SettingsFile.blank "settings.json" true with
      state := .bytes (cut 2 (Settings.codec.spread .usual)).toUTF8 }
    left.toList.drop 70 = ['"', ':', '1'] ∧
    Ledger.codec.parse left = .error .ended ∧
    (∃ vs m', Cache.answerAll Ledger.document (ledgerKey "p") opened.1 opened.2 [.read, .update change] =
      (vs, ⟨none, true⟩, m') ∧ vs.length = 2 ∧ kept m' = kept m) ∧
    f.openStore = (.ok (), { f with held := some .usual }) ∧
    f.reload = (.error (.document .ended), f) := by
  intro left m opened change f
  obtain ⟨-, hledger, -, -, -, hbars, -, -, hsettings⟩ := torn_documents_detected
  have hn : 73 < (Ledger.codec.compact
      ⟨(∅ : SortedMap String TopicRecord).insert "a" ⟨"a", 12, 3⟩⟩).length := by
    rw [Json.Codec.compact, String.length_ofList]
    decide +kernel
  have hsettings' : 2 < (Settings.codec.spread .usual).length := by
    rw [Json.Codec.spread, String.length_ofList]
    decide +kernel
  have hleft : left.toList.drop 70 = ['"', ':', '1'] := by
    simp only [left, cut, Json.Codec.compact, String.toList_ofList]
    decide +kernel
  obtain ⟨vs, m', hanswers, hlength, hkept, -⟩ :=
    (hbars _ _ rfl 73 hn (ledgerKey "p")).denied m [.read, .update change]
      (Memory.payload_setPayload_self _ _ _)
  exact ⟨hleft, hledger _ _ hn, ⟨vs, m', hanswers, hlength, hkept⟩,
    hsettings .usual 2 f hsettings' rfl⟩

end StudyTime
