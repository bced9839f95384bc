import PatchCanvas.CommandLine.Parse
import PatchCanvas.CommandLine.Session

/-!
# What command lines can say

Every word takes a draft with usable values to one with usable values (`sound_word`), so the
options of a command line that is understood have usable values (`sound_readDraft`): its paths are
not empty, and its factor is one by which pictures can be enlarged. What it puts in the place of
the configuration can be used for that reason (`soundOverrides_of_ofWords`).
-/

namespace PatchCanvas.CommandLine

/-- What comes out of two readings, one after the other, comes out of both of them. -/
theorem exists_of_bind_eq_ok {ε α β : Type} {first : Except ε α} {further : α → Except ε β}
    {result : β} (read : first >>= further = .ok result) :
    ∃ value, first = .ok value ∧ further value = .ok result := by
  cases first with
  | error cause => cases read
  | ok value => exact ⟨value, rfl, read⟩

/-- The values that were said can be used. -/
structure Draft.Sound (draft : Draft) : Prop where
  config : draft.config ≠ some ""
  dir : draft.dir ≠ some ""
  output : draft.output ≠ some ""
  scale : ∀ factor, draft.scale = some factor → 1 ≤ factor ∧ factor ≤ Config.maxScale

theorem sound_blank : Draft.blank.Sound where
  config := by simp [Draft.blank]
  dir := by simp [Draft.blank]
  output := by simp [Draft.blank]
  scale := by simp [Draft.blank]

/-! ## Options -/

/-- An option with a value takes usable drafts to usable drafts. -/
def KeepsSound (set : Draft → String → Except Refusal Draft) : Prop :=
  ∀ draft word draft', draft.Sound → set draft word = .ok draft' → draft'.Sound

/-- What an option does takes usable drafts to usable drafts. -/
def Action.KeepsSound : Action → Prop
  | .help => True
  | .flag _ set => ∀ draft : Draft, draft.Sound → (set draft).Sound
  | .value _ set => CommandLine.KeepsSound set

theorem keepsSound_once {α : Type} {name : String} {letter : Option Char}
    {read : String → Except Refusal α} {get : Draft → Option α} {set : Draft → α → Draft}
    (keeps : ∀ draft word value, draft.Sound → read word = .ok value → (set draft value).Sound) :
    (once name letter read get set).action.KeepsSound := by
  intro draft word draft' sound taken
  have taken : (read word).map (set draft) = .ok draft' := taken
  cases told : read word with
  | error refusal =>
    rw [told] at taken
    cases taken
  | ok value =>
    rw [told] at taken
    cases taken
    exact keeps draft word value sound told

theorem ne_empty_of_readPath {word path : String} (read : readPath word = .ok path) :
    some path ≠ some "" := by
  unfold readPath at read
  split at read
  · cases read
  · next nonempty =>
    cases read
    simpa using nonempty

theorem bounds_of_readNumber {low high number : Nat} {word : String}
    (read : readNumber low high word = .ok number) : low ≤ number ∧ number ≤ high := by
  have upTo : ∀ {most : Nat} {digits : List Char} {value : Nat},
      naturalUpTo? most digits = some value → value ≤ most := by
    intro most digits value found
    unfold naturalUpTo? at found
    split at found
    · rw [Text.numberUpTo?_eq most (by decide)] at found
      split at found
      · next small =>
        cases found
        exact small
      · cases found
    · cases found
  unfold readNumber at read
  simp only at read
  split at read
  · next value found =>
    split at read
    · next enough =>
      cases read
      refine ⟨enough, ?_⟩
      split at found
      · exact upTo found
      · exact Nat.le_trans (upTo found) (Nat.zero_le _)
      · exact upTo found
    · cases read
  · cases read

theorem keepsSound_configRule : configRule.action.KeepsSound :=
  keepsSound_once fun _ _ _ sound read => { sound with config := ne_empty_of_readPath read }

theorem keepsSound_dirRule : dirRule.action.KeepsSound :=
  keepsSound_once fun _ _ _ sound read => { sound with dir := ne_empty_of_readPath read }

theorem keepsSound_commonRules : ∀ rule ∈ commonRules, rule.action.KeepsSound := by
  simp only [commonRules, List.forall_mem_cons, List.not_mem_nil, false_implies, implies_true,
    and_true]
  refine ⟨trivial, keepsSound_configRule, keepsSound_dirRule, ?palette, ?remap, ?scale, ?keepMask,
    ?strict⟩
  case palette => exact keepsSound_once fun _ _ _ sound _ => { sound with }
  case remap => exact keepsSound_once fun _ _ _ sound _ => { sound with }
  case scale =>
    refine keepsSound_once fun draft word factor sound read => { sound with scale := ?_ }
    intro factor' same
    cases same
    exact bounds_of_readNumber read
  case keepMask => exact fun _ sound => { sound with }
  case strict => exact fun _ sound => { sound with }

theorem keepsSound_renderRules : ∀ rule ∈ renderRules, rule.action.KeepsSound := by
  refine List.forall_mem_append.mpr ⟨?_, keepsSound_commonRules⟩
  simp only [List.forall_mem_cons, List.not_mem_nil, false_implies, implies_true, and_true]
  refine ⟨?format, ?width, ?height, ?output⟩
  case format => exact keepsSound_once fun _ _ _ sound _ => { sound with }
  case width => exact keepsSound_once fun _ _ _ sound _ => { sound with }
  case height => exact keepsSound_once fun _ _ _ sound _ => { sound with }
  case output =>
    exact keepsSound_once fun _ _ _ sound read =>
      { sound with output := ne_empty_of_readPath read }

theorem keepsSound_compositeRules : ∀ rule ∈ compositeRules, rule.action.KeepsSound := by
  refine List.forall_mem_append.mpr ⟨?_, keepsSound_commonRules⟩
  simp only [List.forall_mem_cons, List.not_mem_nil, false_implies, implies_true, and_true]
  exact keepsSound_once fun _ _ _ sound read => { sound with output := ne_empty_of_readPath read }

theorem keepsSound_inspectRules : ∀ rule ∈ inspectRules, rule.action.KeepsSound := by
  simp only [inspectRules, List.forall_mem_cons, List.not_mem_nil, false_implies, implies_true,
    and_true]
  exact ⟨trivial, keepsSound_dirRule, keepsSound_configRule, fun _ sound => { sound with }⟩

/-! ## Words -/

/-- What was said so far can be used, and whatever waits for its value keeps it so. -/
structure Progress.Sound (progress : Progress) : Prop where
  draft : progress.draft.Sound
  pending : ∀ pending, progress.pending = some pending → KeepsSound pending.set

namespace Progress

/-- Nothing waits for a value. -/
theorem sound_of_draft {draft : Draft} (sound : draft.Sound) : (Progress.mk draft none).Sound :=
  ⟨sound, fun _ waiting => by cases waiting⟩

theorem sound_assign {isSet : Draft → Bool} {set : Draft → String → Except Refusal Draft}
    (keeps : KeepsSound set) {draft draft' : Draft} {word : String} (sound : draft.Sound)
    (assigned : assign isSet set draft word = .ok draft') : draft'.Sound := by
  unfold assign at assigned
  split at assigned
  · cases assigned
  · exact keeps draft word draft' sound assigned

variable {progress progress' : Progress}

theorem sound_settle (sound : progress.Sound) {draft : Draft}
    (settled : progress.settle = .ok draft) : draft.Sound := by
  unfold settle at settled
  split at settled
  · cases settled
    exact sound.draft
  · next pending waits =>
    split at settled
    · cases settled
    · exact sound_assign (sound.pending pending waits) sound.draft settled

theorem sound_raise (sound : progress.Sound) {isSet : Draft → Bool} {set : Draft → Draft}
    (keeps : ∀ draft, draft.Sound → (set draft).Sound)
    (raised : progress.raise isSet set = .ok progress') : progress'.Sound := by
  obtain ⟨draft, settled, set⟩ := exists_of_bind_eq_ok raised
  split at set
  · cases set
  · cases set
    exact sound_of_draft (keeps draft (sound_settle sound settled))

theorem sound_accept (sound : progress.Sound) {isSet : Draft → Bool}
    {set : Draft → String → Except Refusal Draft} (keeps : KeepsSound set)
    {attached : Option String} (accepted : progress.accept isSet set attached = .ok progress') :
    progress'.Sound := by
  obtain ⟨draft, settled, further⟩ := exists_of_bind_eq_ok accepted
  have sound := sound_settle sound settled
  split at further
  · obtain ⟨draft', assigned, done⟩ := exists_of_bind_eq_ok further
    cases done
    exact sound_of_draft (sound_assign keeps sound assigned)
  · cases further
    refine ⟨sound, ?_⟩
    intro pending waits
    cases waits
    exact keeps

theorem sound_subject (sound : progress.Sound) {text : String}
    (read : progress.subject text = .ok progress') : progress'.Sound := by
  unfold subject at read
  split at read
  · cases read
  · obtain ⟨draft, settled, done⟩ := exists_of_bind_eq_ok read
    cases done
    exact sound_of_draft { sound_settle sound settled with }

theorem sound_subjects (sound : progress.Sound) {words : List String}
    (read : words.foldlM subject progress = .ok progress') : progress'.Sound := by
  induction words generalizing progress with
  | nil =>
    cases read
    exact sound
  | cons text rest ih =>
    rw [List.foldlM_cons] at read
    obtain ⟨next, first, others⟩ := exists_of_bind_eq_ok read
    exact ih (sound_subject sound first) others

section Rules

variable {rules : List OptionRule} (keeps : ∀ rule ∈ rules, rule.action.KeepsSound)

include keeps

theorem sound_longOption (sound : progress.Sound) {body : List Char}
    (read : progress.longOption rules body = .ok progress') : progress'.Sound := by
  unfold longOption at read
  simp only at read
  split at read
  · cases read
  · next rule found =>
    have kept := keeps rule (List.mem_of_find?_eq_some found)
    split at read
    · obtain ⟨_, _, refused⟩ := exists_of_bind_eq_ok read
      cases refused
    · next action _ =>
      rw [action] at kept
      exact sound_raise sound kept read
    · next action =>
      rw [action] at kept
      exact sound_accept sound kept read
    · cases read

theorem sound_shortOptions (sound : progress.Sound) {letters : List Char}
    (read : progress.shortOptions rules letters = .ok progress') : progress'.Sound := by
  induction letters generalizing progress with
  | nil =>
    cases read
    exact sound
  | cons letter rest ih =>
    unfold shortOptions at read
    split at read
    · cases read
    · next rule found =>
      have kept := keeps rule (List.mem_of_find?_eq_some found)
      split at read
      · obtain ⟨_, _, refused⟩ := exists_of_bind_eq_ok read
        cases refused
      · next action =>
        obtain ⟨raised, set, others⟩ := exists_of_bind_eq_ok read
        rw [action] at kept
        exact ih (sound_raise sound kept set) others
      · next action =>
        rw [action] at kept
        exact sound_accept sound kept read

/-- A word that is understood leaves what was said usable. -/
theorem sound_word (sound : progress.Sound) {text : String}
    (read : progress.word rules text = .ok progress') : progress'.Sound := by
  unfold word at read
  split at read
  · exact sound_longOption keeps sound read
  · exact sound_shortOptions keeps sound read
  · split at read
    · next pending waits =>
      cases read
      refine ⟨sound.draft, ?_⟩
      intro pending' waits'
      cases waits'
      exact sound.pending pending (Option.eq_some_of_filter_eq_some waits)
    · exact sound_subject sound read

theorem sound_words (sound : progress.Sound) {words : List String}
    (read : Progress.words rules progress words = .ok progress') : progress'.Sound := by
  fun_induction Progress.words rules progress words with
  | case1 progress =>
    cases read
    exact sound
  | case2 progress rest => exact sound_subjects sound read
  | case3 progress text rest _ ih =>
    obtain ⟨next, first, others⟩ := exists_of_bind_eq_ok read
    exact ih next (sound_word keeps sound first) others

end Rules

end Progress

theorem sound_readDraft {rules : List OptionRule} (keeps : ∀ rule ∈ rules, rule.action.KeepsSound)
    {words : List String} {draft : Draft} (read : readDraft rules words = .ok draft) :
    draft.Sound := by
  obtain ⟨progress, understood, settled⟩ := exists_of_bind_eq_ok read
  exact Progress.sound_settle
    (Progress.sound_words keeps (Progress.sound_of_draft sound_blank) understood) settled

/-! ## Requests -/

/-- The configuration file that a request names. -/
def Request.configPath : Request → Option String
  | .render _ _ _ _ _ common => common.config
  | .composite _ _ common => common.config
  | .inspect _ _ config _ => config

/-- What a request puts in the place of its configuration. -/
def Request.overrides : Request → Overrides
  | .render _ _ _ _ _ common => common.overrides none
  | .composite _ out common => common.overrides out
  | .inspect _ dir _ _ => ⟨dir, none, none, none, none⟩

/-- The directory is not empty, and the factor is one by which pictures can be enlarged. -/
structure SoundOverrides (overrides : Overrides) : Prop where
  dir : overrides.dir ≠ some ""
  scale : ∀ factor, overrides.scale = some factor → 1 ≤ factor ∧ factor ≤ Config.maxScale

theorem Draft.Sound.overrides {draft : Draft} (sound : draft.Sound) (out : Option String) :
    SoundOverrides (draft.common.overrides out) := ⟨sound.dir, sound.scale⟩

/-- A command line that is understood puts nothing unusable in the place of its configuration. -/
theorem soundOverrides_of_ofWords {words : List String} {request : Request}
    (accepted : Request.ofWords words = .ok request) : SoundOverrides request.overrides := by
  unfold Request.ofWords at accepted
  split at accepted
  · cases accepted
  · obtain ⟨draft, read, further⟩ := exists_of_bind_eq_ok accepted
    have sound := sound_readDraft keepsSound_renderRules read
    split at further
    · simp only at further
      split at further
      · cases further
      · cases further
        exact sound.overrides none
    · cases further
  · obtain ⟨draft, read, made⟩ := exists_of_bind_eq_ok accepted
    have sound := sound_readDraft keepsSound_compositeRules read
    cases made
    exact sound.overrides draft.output
  · obtain ⟨draft, read, further⟩ := exists_of_bind_eq_ok accepted
    have sound := sound_readDraft keepsSound_inspectRules read
    split at further
    · cases further
      exact ⟨sound.dir, fun _ said => by cases said⟩
    · cases further
  · cases accepted
  · cases accepted
  · cases accepted
  · split at accepted
    · cases accepted
    · cases accepted

end PatchCanvas.CommandLine
