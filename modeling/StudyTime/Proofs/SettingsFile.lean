/-
**Settings are loaded alike, and kept valid.**

There are two ways to load settings from the file.  Opening takes the usual settings where it finds
nothing that it could take; reading the file again refuses the same.  What a path shows is one of four
things: nothing, no text, a text that is not the one of valid settings, or valid settings.  What comes of
either way of loading is told by that alone, and from this their agreement follows.

Settings come to be held by opening, by reading again, and by an update, which writes them first.  Each
of the three checks the survey window on its own, and each gives up before it changes anything; so over
any course of steps the settings held are valid.

Main definitions:

* `Finding`, `FileState.Shows` — what a path shows;
* `SettingsFile.Accepts` — settings that an update takes;
* `SettingsFile.Loads`, `SettingsFile.Moves` — what comes of loading settings, and of a step;
* `SettingsFile.Kept`, `SettingsFile.LoadersAgree` — settings that stay valid, and two ways of loading
  that agree.

Main results:

* `SettingsFile.loads_openStore`, `SettingsFile.loads_reload` — both ways of loading, by what is shown;
* `SettingsFile.update_cases` — an update is refused, or written and held;
* `SettingsFile.moves_step` — what a step can do;
* `SettingsFile.Valid.step` — no step makes the settings held invalid;
* `SettingsFile.kept_of_run` — **settings stay valid, and what is refused changes nothing**;
* `SettingsFile.loaders_agree` — **both ways of loading agree on every file**.
-/

import StudyTime.SettingsFile
import StudyTime.Proofs.Documents

set_option relaxedAutoImplicit false
set_option autoImplicit false

namespace StudyTime

open Json (ReadError)

/-! ### What a path shows -/

namespace FileState

/-- A text is read back from its bytes. -/
theorem text?_bytes (text : String) : (bytes text.toUTF8).text? = some text := by
  simp only [text?, String.fromUTF8?, String.toUTF8_eq_toByteArray, dif_pos text.isValidUTF8]
  rfl

/-- Where a text is read, its bytes stand. -/
theorem eq_of_text? {state : FileState} {text : String} (h : state.text? = some text) :
    state = bytes text.toUTF8 := by
  cases state with
  | missing => cases h
  | folder => cases h
  | bytes content =>
      simp only [text?, String.fromUTF8?] at h
      split at h
      · cases h
        rfl
      · cases h

theorem text?_eq_none {content : ByteArray} (h : ∀ text : String, text.toUTF8 ≠ content) :
    (bytes content).text? = none := by
  cases htext : (bytes content).text? with
  | none => rfl
  | some text =>
      have hcontent := eq_of_text? htext
      injection hcontent with hcontent
      exact absurd hcontent.symm (h text)

end FileState

/-- What a path shows to somebody who looks for settings. -/
inductive Finding where
  | nothing
  | noText
  | noSettings
  | settings (s : Settings)

namespace Finding

/-- The settings that opening takes. -/
def opened : Finding → Option Settings
  | nothing => some .usual
  | noText => none
  | noSettings => some .usual
  | settings s => some s

/-- The settings that reading again takes. -/
def reread : Finding → Option Settings
  | settings s => some s
  | _ => none

end Finding

/-- What the states of a path show: a text counts if it is UTF-8, and settings if they are valid. -/
inductive FileState.Shows : FileState → Finding → Prop
  | missing : Shows .missing .nothing
  | folder : Shows .folder .noText
  | noText {content : ByteArray} (h : ∀ text : String, text.toUTF8 ≠ content) :
      Shows (.bytes content) .noText
  | malformed {text : String} {e : ReadError} (h : Settings.codec.parse text = .error e) :
      Shows (.bytes text.toUTF8) .noSettings
  | invalid {text : String} {s : Settings} (h : Settings.codec.parse text = .ok s)
      (hs : s.isValid = false) : Shows (.bytes text.toUTF8) .noSettings
  | settings {text : String} {s : Settings} (h : Settings.codec.parse text = .ok s)
      (hs : s.isValid = true) : Shows (.bytes text.toUTF8) (.settings s)

namespace FileState

theorem exists_shows (state : FileState) : ∃ found, state.Shows found := by
  cases state with
  | missing => exact ⟨_, .missing⟩
  | folder => exact ⟨_, .folder⟩
  | bytes content =>
      by_cases htext : ∃ text : String, text.toUTF8 = content
      · obtain ⟨text, rfl⟩ := htext
        cases hparse : Settings.codec.parse text with
        | error e => exact ⟨_, .malformed hparse⟩
        | ok s =>
            cases hs : s.isValid with
            | false => exact ⟨_, .invalid hparse hs⟩
            | true => exact ⟨_, .settings hparse hs⟩
      · exact ⟨_, .noText fun text h => htext ⟨text, h⟩⟩

/-- Written settings show themselves. -/
theorem shows_spread {s : Settings} (hs : s.isValid = true) :
    (bytes (Settings.codec.spread s).toUTF8).Shows (.settings s) :=
  .settings (Settings.lawful_codec.parse_spread s) hs

end FileState

theorem Settings.isValid_usual : Settings.usual.isValid = true := by decide

theorem Settings.validate_of_isValid {s : Settings} (h : s.isValid = true) :
    s.validate = .ok () := by
  simp [validate, h]

/-- Whatever a path shows, opening takes valid settings. -/
theorem FileState.Shows.isValid_of_opened {state : FileState} {found : Finding}
    (h : state.Shows found) {s : Settings} (hs : found.opened = some s) : s.isValid = true := by
  cases h with
  | missing =>
      cases hs
      exact Settings.isValid_usual
  | folder => cases hs
  | noText _ => cases hs
  | malformed _ =>
      cases hs
      exact Settings.isValid_usual
  | invalid _ _ =>
      cases hs
      exact Settings.isValid_usual
  | settings _ hvalid =>
      cases hs
      exact hvalid

/-- Reading again takes nothing but settings that are shown. -/
theorem Finding.eq_of_reread {found : Finding} {s : Settings} (h : found.reread = some s) :
    found = .settings s := by
  cases found with
  | nothing => cases h
  | noText => cases h
  | noSettings => cases h
  | settings s' =>
      cases h
      rfl

namespace SettingsFile

variable {f g : SettingsFile} {s : Settings} {found : Finding}

/-! ### Loading -/

/-- What comes of loading settings: they are held from then on, or nothing changes. -/
inductive Loads (f : SettingsFile) :
    Except Failure Unit × SettingsFile → Option Settings → Prop
  | held (s : Settings) : Loads f (.ok (), { f with held := some s }) (some s)
  | refused (e : Failure) : Loads f (.error e, f) none

theorem Loads.cases {r : Except Failure Unit × SettingsFile} {result : Option Settings}
    (h : f.Loads r result) :
    (∃ e, r = (.error e, f)) ∨ ∃ s, result = some s ∧ r = (.ok (), { f with held := some s }) := by
  cases h with
  | held s => exact .inr ⟨s, rfl, rfl⟩
  | refused e => exact .inl ⟨e, rfl⟩

/-- **Opening takes what is shown**, and the usual settings for want of any. -/
theorem loads_openStore (h : f.state.Shows found) : f.Loads f.openStore found.opened := by
  obtain ⟨path, reachable, state, held⟩ := f
  cases h with
  | missing => exact .held _
  | folder => exact .refused _
  | noText h =>
      simp only [openStore, opened, FileState.text?_eq_none h]
      exact .refused _
  | malformed h =>
      simp only [openStore, opened, FileState.text?_bytes, h]
      exact .held _
  | invalid h hs =>
      simp only [openStore, opened, FileState.text?_bytes, h, hs]
      exact .held _
  | settings h hs =>
      simp only [openStore, opened, FileState.text?_bytes, h, hs]
      exact .held _

/-- **Reading again takes what is shown**, and refuses anything but valid settings. -/
theorem loads_reload (h : f.state.Shows found) : f.Loads f.reload found.reread := by
  obtain ⟨path, reachable, state, held⟩ := f
  cases h with
  | missing => exact .refused _
  | folder => exact .refused _
  | noText h =>
      simp only [reload, reread, FileState.text?_eq_none h]
      exact .refused _
  | malformed h =>
      simp only [reload, reread, FileState.text?_bytes, h]
      exact .refused _
  | invalid h hs =>
      simp only [reload, reread, FileState.text?_bytes, h, Settings.validate, hs]
      exact .refused _
  | settings h hs =>
      simp only [reload, reread, FileState.text?_bytes, h, Settings.validate_of_isValid hs]
      exact .held _

/-- Settings that an update takes: they are valid, and at the path a file stands or can be put. -/
def Accepts (f : SettingsFile) (s : Settings) : Prop :=
  s.isValid = true ∧ f.reachable = true ∧ f.state ≠ .folder

/-- **An update is refused and changes nothing, or the settings are written and held.** -/
theorem update_cases (f : SettingsFile) (s : Settings) :
    (¬ f.Accepts s ∧ ∃ e, f.update s = (.error e, f)) ∨
    (f.Accepts s ∧ f.update s =
      (.ok (), { f with state := .bytes (Settings.codec.spread s).toUTF8, held := some s })) := by
  obtain ⟨path, reachable, state, held⟩ := f
  cases hs : s.isValid with
  | false => exact .inl ⟨by simp [Accepts, hs], _, by simp only [update, Settings.validate, hs]; rfl⟩
  | true =>
      simp only [update, Settings.validate_of_isValid hs]
      cases reachable with
      | false => exact .inl ⟨by simp [Accepts], _, rfl⟩
      | true =>
          cases state with
          | missing => exact .inr ⟨⟨hs, rfl, by simp⟩, rfl⟩
          | folder => exact .inl ⟨by simp [Accepts], _, rfl⟩
          | bytes content => exact .inr ⟨⟨hs, rfl, by simp⟩, rfl⟩

/-! ### Steps -/

/-- What a step can do: it fails or only tells something, another thing is put in the place of the file,
or settings are held: those that loading takes, or those that an update takes and has written. -/
inductive Moves (f : SettingsFile) : SettingsStep → SettingsAnswer × SettingsFile → Prop
  | failed (step : SettingsStep) (e : Failure) : Moves f step (.failed e, f)
  | notOpen (step : SettingsStep) (h : f.held = none) : Moves f step (.notOpen, f)
  | contents : Moves f .contents (.contents f.state.text?, f)
  | got {s : Settings} (h : f.held = some s) : Moves f .get (.settings s, f)
  | replaced (state : FileState) : Moves f (.replace state) (.done, f.replace state)
  | opened {found : Finding} {s : Settings} (h : f.state.Shows found) (hs : found.opened = some s) :
      Moves f .openStore (.done, { f with held := some s })
  | reloaded {s : Settings} (h : f.state.Shows (.settings s)) :
      Moves f .reload (.done, { f with held := some s })
  | updated {s : Settings} (h : f.Accepts s) : Moves f (.update s)
      (.done, { f with state := .bytes (Settings.codec.spread s).toUTF8, held := some s })

theorem moves_openStore (f : SettingsFile) : f.Moves .openStore (outcome f.openStore) := by
  obtain ⟨found, hfound⟩ := f.state.exists_shows
  rcases (loads_openStore hfound).cases with ⟨e, he⟩ | ⟨s, hs, hdone⟩
  · rw [he]
    exact .failed _ e
  · rw [hdone]
    exact .opened hfound hs

theorem moves_reload (f : SettingsFile) : f.Moves .reload (outcome f.reload) := by
  obtain ⟨found, hfound⟩ := f.state.exists_shows
  rcases (loads_reload hfound).cases with ⟨e, he⟩ | ⟨s, hs, hdone⟩
  · rw [he]
    exact .failed _ e
  · rw [hdone]
    rw [Finding.eq_of_reread hs] at hfound
    exact .reloaded hfound

theorem moves_update (f : SettingsFile) (s : Settings) :
    f.Moves (.update s) (outcome (f.update s)) := by
  rcases f.update_cases s with ⟨_, e, he⟩ | ⟨haccepts, hdone⟩
  · rw [he]
    exact .failed _ e
  · rw [hdone]
    exact .updated haccepts

theorem moves_step (f : SettingsFile) (step : SettingsStep) : f.Moves step (f.step step) := by
  cases step with
  | replace state => exact .replaced state
  | contents => exact .contents
  | openStore => exact f.moves_openStore
  | get =>
      rw [SettingsFile.step]
      split
      next h => exact .notOpen _ h
      next h => exact .got h
  | update s =>
      rw [SettingsFile.step]
      split
      next => exact f.moves_update s
      next h => exact .notOpen _ (Option.not_isSome_iff_eq_none.1 h)
  | reload =>
      rw [SettingsFile.step]
      split
      next => exact f.moves_reload
      next h => exact .notOpen _ (Option.not_isSome_iff_eq_none.1 h)

/-- The settings held are valid. -/
def Valid (f : SettingsFile) : Prop := ∀ s, f.held = some s → s.isValid = true

theorem valid_blank (path : String) (reachable : Bool) : (blank path reachable).Valid := by
  intro s h
  cases h

theorem valid_of_held (h : f.held = some s) (hs : s.isValid = true) : f.Valid := by
  intro s' hs'
  rw [h] at hs'
  cases hs'
  exact hs

theorem Valid.of_moves (h : f.Valid) {step : SettingsStep} {r : SettingsAnswer × SettingsFile}
    (hr : f.Moves step r) : r.2.Valid := by
  cases hr with
  | failed _ _ => exact h
  | notOpen _ _ => exact h
  | contents => exact h
  | got _ => exact h
  | replaced state =>
      simp only [SettingsFile.replace]
      split <;> exact h
  | opened hfound hs => exact valid_of_held rfl (hfound.isValid_of_opened hs)
  | reloaded hfound => exact valid_of_held rfl (hfound.isValid_of_opened rfl)
  | updated haccepts => exact valid_of_held rfl haccepts.1

/-- **No step makes the settings held invalid.** -/
theorem Valid.step (h : f.Valid) (step : SettingsStep) : (f.step step).2.Valid :=
  h.of_moves (f.moves_step step)

theorem Valid.run (steps : List SettingsStep) :
    ∀ {f : SettingsFile}, f.Valid → (f.run steps).2.Valid := by
  induction steps with
  | nil =>
      intro f h
      exact h
  | cons step steps ih =>
      intro f h
      exact ih (h.step step)

theorem step_update_of_accepts (hheld : f.held.isSome = true) (h : f.Accepts s) :
    (f.step (.update s)).1 = .done := by
  rcases f.update_cases s with ⟨hrefuses, _⟩ | ⟨_, hdone⟩
  · exact absurd h hrefuses
  · rw [SettingsFile.step, if_pos hheld, hdone]
    rfl

/-- Settings that stay valid: those held are, a step that fails leaves them and the file as they
were, and an update that is done holds and has written what it was given.  No update is refused
without need. -/
structure Kept (f : SettingsFile) : Prop where
  valid : ∀ s, f.held = some s → s.survey.windowStart.before s.survey.windowEnd = true
  failed : ∀ step e g, f.step step = (.failed e, g) → g = f
  updated : ∀ s g, f.step (.update s) = (.done, g) →
    g = { f with state := .bytes (Settings.codec.spread s).toUTF8, held := some s }
  accepted : ∀ s, f.held.isSome = true → f.Accepts s → (f.step (.update s)).1 = .done

/-- **Settings stay valid, and what is refused changes nothing**, after any course of steps. -/
theorem kept_of_run (path : String) (reachable : Bool) (steps : List SettingsStep) :
    Kept ((blank path reachable).run steps).2 := by
  generalize hf : ((blank path reachable).run steps).2 = f
  have hvalid : f.Valid := by
    rw [← hf]
    exact (valid_blank path reachable).run steps
  refine ⟨hvalid, ?_, ?_, fun _ => step_update_of_accepts⟩
  · intro step e g h
    have hmoves := f.moves_step step
    rw [h] at hmoves
    cases hmoves
    rfl
  · intro s g h
    have hmoves := f.moves_step (.update s)
    rw [h] at hmoves
    cases hmoves
    rfl

/-- A survey window that ends before it starts is refused, and the usual settings stay. -/
theorem kept_of_refused_window :
    let f := ((blank "settings.json" true).run [.openStore]).2
    let inverted : Settings :=
      { Settings.usual with
        survey := { SurveySettings.usual with windowStart := .ofMinute 23 0 (by decide) } }
    (f.step (.update inverted)).2 = f ∧ f.held = some .usual := by
  intro f inverted
  exact ⟨(kept_of_run "settings.json" true [.openStore]).failed (.update inverted)
    (.window inverted.survey.windowStart inverted.survey.windowEnd) _ rfl, rfl⟩

/-! ### Both ways of loading -/

/-- What comes of opening the file, whatever is held at the time. -/
def Opens (f : SettingsFile) (result : Option Settings) : Prop :=
  ∀ held, { f with held := held }.Loads { f with held := held }.openStore result

/-- What comes of reading the file again, whatever is held at the time. -/
def Reloads (f : SettingsFile) (result : Option Settings) : Prop :=
  ∀ held, { f with held := held }.Loads { f with held := held }.reload result

theorem opens_of_shows (h : f.state.Shows found) : f.Opens found.opened := by
  intro held
  exact loads_openStore h

theorem reloads_of_shows (h : f.state.Shows found) : f.Reloads found.reread := by
  intro held
  exact loads_reload h

/-- After an update that succeeds, the settings are held and the file shows them. -/
theorem shows_of_update (h : f.update s = (.ok (), g)) :
    g.held = some s ∧ g.state.Shows (.settings s) := by
  rcases f.update_cases s with ⟨_, e, he⟩ | ⟨haccepts, hdone⟩
  · rw [he] at h
    cases h
  · rw [hdone] at h
    cases h
    exact ⟨rfl, FileState.shows_spread haccepts.1⟩

/-- Two ways of loading that agree.  Reading again succeeds only where valid settings are shown, and
there both take them.  Without valid settings reading again is refused, and opening takes the usual
settings unless there is something but no text.  What was written by an update is taken either way. -/
structure LoadersAgree (f : SettingsFile) : Prop where
  found : ∃ found, f.state.Shows found
  reloaded : ∀ g, f.reload = (.ok (), g) →
    ∃ s, f.state.Shows (.settings s) ∧ g = { f with held := some s } ∧ f.Opens (some s)
  settings : ∀ s, f.state.Shows (.settings s) → f.Reloads (some s) ∧ f.Opens (some s)
  noSettings : f.state.Shows .noSettings → f.Reloads none ∧ f.Opens (some .usual)
  nothing : f.state.Shows .nothing → f.Reloads none ∧ f.Opens (some .usual)
  noText : f.state.Shows .noText → f.Reloads none ∧ f.Opens none
  updated : ∀ s g, f.update s = (.ok (), g) →
    g.held = some s ∧ g.Reloads (some s) ∧ g.Opens (some s)

/-- **Both ways of loading agree on every file**, whatever is held. -/
theorem loaders_agree (f : SettingsFile) : LoadersAgree f where
  found := f.state.exists_shows
  reloaded g h := by
    obtain ⟨found, hfound⟩ := f.state.exists_shows
    rcases (loads_reload hfound).cases with ⟨e, he⟩ | ⟨s, hs, hdone⟩
    · rw [he] at h
      cases h
    · rw [hdone] at h
      cases h
      rw [Finding.eq_of_reread hs] at hfound
      exact ⟨s, hfound, rfl, opens_of_shows hfound⟩
  settings _ h := ⟨reloads_of_shows h, opens_of_shows h⟩
  noSettings h := ⟨reloads_of_shows h, opens_of_shows h⟩
  nothing h := ⟨reloads_of_shows h, opens_of_shows h⟩
  noText h := ⟨reloads_of_shows h, opens_of_shows h⟩
  updated s g h := by
    obtain ⟨hheld, hfound⟩ := shows_of_update h
    exact ⟨hheld, reloads_of_shows hfound, opens_of_shows hfound⟩

/-- A file without settings is refused when it is read again, and opened with the usual ones. -/
theorem loaders_agree_on_unparsable :
    let f : SettingsFile := ⟨"settings.json", true, .bytes "not json".toUTF8, none⟩
    f.Reloads none ∧ f.Opens (some .usual) := by
  intro f
  exact (loaders_agree f).noSettings (.malformed rfl)

end SettingsFile

end StudyTime
