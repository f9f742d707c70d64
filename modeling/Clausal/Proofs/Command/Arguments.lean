import Clausal.Command.Arguments
import Clausal.Proofs.Fallible
import Clausal.Proofs.Text.Numeral

/-!
What an accepted command line can ask for: one of the solvers to choose from, or none, and numbers that
have numerals.
-/

set_option autoImplicit false

namespace Clausal.Command

namespace Arguments

structure Admissible (arguments : Arguments) : Prop where
  solver : ∀ name ∈ arguments.solver, name ∈ solverChoices
  budget : ∀ value ∈ arguments.budget, Text.Fits value
  seed : ∀ value ∈ arguments.seed, Text.Fits value

variable {arguments later : Arguments}

theorem Admissible.setValue (admissible : arguments.Admissible) {flag : Flag} {value : String}
    (changed : arguments.setValue flag value = .ok later) : later.Admissible := by
  cases flag with
  | help => cases changed
  | solver =>
      rw [Arguments.setValue] at changed
      split at changed
      · next chosen =>
          cases changed
          refine ⟨?_, admissible.budget, admissible.seed⟩
          intro name named
          cases named
          exact List.contains_iff_mem.mp chosen
      · cases changed
  | budget =>
      rw [Arguments.setValue] at changed
      split at changed
      · next number read =>
          cases changed
          refine ⟨admissible.solver, ?_, admissible.seed⟩
          intro value given
          cases given
          exact Text.fits_of_readInteger? read
      · cases changed
  | seed =>
      rw [Arguments.setValue] at changed
      split at changed
      · next number read =>
          cases changed
          refine ⟨admissible.solver, admissible.budget, ?_⟩
          intro value given
          cases given
          exact Text.fits_of_readInteger? read
      · cases changed
  | config =>
      cases changed
      exact ⟨admissible.solver, admissible.budget, admissible.seed⟩
  | logDirectory =>
      cases changed
      exact ⟨admissible.solver, admissible.budget, admissible.seed⟩
  | verbose =>
      cases changed
      exact ⟨admissible.solver, admissible.budget, admissible.seed⟩

theorem Admissible.foldlM (admissible : arguments.Admissible) {flags : List Flag}
    (changed : flags.foldlM (fun arguments flag => arguments.setValue flag "") arguments = .ok later) :
    later.Admissible := by
  induction flags generalizing arguments with
  | nil =>
      cases changed
      exact admissible
  | cons flag rest ih =>
      rw [List.foldlM_cons] at changed
      obtain ⟨middle, first, others⟩ := bind_eq_ok changed
      exact ih (admissible.setValue first) others

end Arguments

variable {progress later : Progress} {words after : List Word}

theorem admissible_takeOption (admissible : progress.arguments.Admissible) {text : String} {reading : Reading}
    (taken : takeOption progress text reading words = .ok (later, after)) : later.arguments.Admissible := by
  unfold takeOption at taken
  split at taken
  · cases taken
    exact admissible
  · split at taken
    · split at taken
      · obtain ⟨changed, set, same⟩ := bind_eq_ok taken
        cases same
        exact admissible.setValue set
      · obtain ⟨changed, set, same⟩ := bind_eq_ok taken
        cases same
        exact admissible.setValue set
      · cases taken
    · dsimp only at taken
      split at taken
      · obtain ⟨flags, _, rest⟩ := bind_eq_ok taken
        obtain ⟨changed, set, same⟩ := bind_eq_ok rest
        cases same
        exact admissible.foldlM set
      · cases taken
      · obtain ⟨flags, _, rest⟩ := bind_eq_ok taken
        obtain ⟨changed, set, same⟩ := bind_eq_ok rest
        cases same
        exact admissible.foldlM set

theorem admissible_takePending? (admissible : progress.arguments.Admissible)
    (taken : takePending? progress words = some (later, after)) : later.arguments.Admissible := by
  unfold takePending? at taken
  split at taken
  · cases taken
  · obtain ⟨files, _, same⟩ := Option.map_eq_some_iff.mp taken
    cases same
    exact admissible

/-- Words are taken from the left, an option with its value or the files at a time. -/
theorem admissible_takeWords (admissible : progress.arguments.Admissible)
    (taken : takeWords progress words = .ok later) : later.arguments.Admissible := by
  fun_induction takeWords progress words with
  | case1 progress =>
      cases taken
      exact admissible
  | case2 progress text reading rest refusal refused => cases taken
  | case3 progress text reading rest middle after option ih =>
      exact ih (admissible_takeOption admissible option) taken
  | case4 progress word rest middle after pending files ih =>
      exact ih (admissible_takePending? admissible files) taken
  | case5 progress word rest pending none ih => exact ih admissible taken

theorem Arguments.admissible_of_read {line : List String} {arguments : Arguments}
    (read : Arguments.read line = .ok arguments) : arguments.Admissible := by
  obtain ⟨words, _, rest⟩ := bind_eq_ok read
  obtain ⟨progress, taken, finished⟩ := bind_eq_ok rest
  have nothing : ({ formula := "" } : Arguments).Admissible :=
    ⟨(fun _ named => nomatch named), (fun _ given => nomatch given), (fun _ given => nomatch given)⟩
  have admissible : progress.arguments.Admissible := admissible_takeWords nothing taken
  split at finished
  · cases finished
  · split at finished
    · cases finished
      exact ⟨admissible.solver, admissible.budget, admissible.seed⟩
    · cases finished

end Clausal.Command
