import ElementBinding.Proofs.Binding.Decision

/-!
# Strict calls

Whether a call of `bind` is strict decides only how a failure reaches the caller. A strict call
seeks the entry and runs the binder as a lenient call does, and leaves the same program and the same
host; where the lenient call returns a failure, it raises what the failure records.
-/
namespace ElementBinding

/-- Asking the result of a call for its failure, which is then raised. -/
def BindOutcome.raising (outcome : BindOutcome) : BindOutcome :=
  { outcome with result := outcome.result.bind BindResult.raiseForFailure }

section Modes
variable {options : BindOptions} {program after : Program} {host : Host} {owner : Class}
  {deeds : List Deed} {found : Except BindStop (Option Registration)} {outcome : BindOutcome}

theorem Seeks.of_mode (strict : Bool) (h : Seeks options owner program deeds found after) :
    Seeks { options with strict } owner program deeds found after := by
  cases h with
  | registered h => exact .registered h
  | unneeded h hdeclared => exact .unneeded h hdeclared
  | forbidden h hdeclared hallowed => exact .forbidden h hdeclared hallowed
  | broken himports himport =>
    exact .broken ⟨himports.unregistered, himports.declares, himports.allowed⟩ himport
  | unregistered himports himport h =>
    exact .unregistered ⟨himports.unregistered, himports.declares, himports.allowed⟩ himport h
  | imported himports himport h =>
    exact .imported ⟨himports.unregistered, himports.declares, himports.allowed⟩ himport h

theorem BindOptions.conclude_strict (owner : Class) (entry : Option Registration)
    (stop : BindStop) :
    { options with strict := true }.conclude owner entry stop =
      ({ options with strict := false }.conclude owner entry stop).bind
        BindResult.raiseForFailure := by
  cases stop with
  | failed error => rfl
  | raised raised => rfl

/-- A strict call goes the way of the lenient one, and raises its failure at the end of it. -/
theorem Binds.strict (h : Binds { options with strict := false } program host deeds outcome) :
    Binds { options with strict := true } program host deeds outcome.raising := by
  cases h with
  | stopped hseeks =>
    rw [BindOutcome.raising, ← BindOptions.conclude_strict]
    exact .stopped (hseeks.of_mode true)
  | unneeded hseeks => exact .unneeded (hseeks.of_mode true)
  | outdated hseeks hagrees =>
    rw [BindOutcome.raising, ← BindOptions.conclude_strict]
    exact .outdated (hseeks.of_mode true) hagrees
  | raised hseeks hagrees hrun =>
    rw [BindOutcome.raising, ← BindOptions.conclude_strict]
    exact .raised (hseeks.of_mode true) hagrees hrun
  | bound hseeks hagrees hrun => exact .bound (hseeks.of_mode true) hagrees hrun

end Modes

namespace BindError

@[simp] theorem raised_type (error : BindError) : error.raised.type = error.type := by
  cases error <;> rfl

@[simp] theorem raised_message (error : BindError) : error.raised.message = error.message := by
  cases error <;> rfl

end BindError

namespace BindResult
variable {result : BindResult}

theorem raiseForFailure_of_failed (h : result.outcome = "FAILED") :
    ∃ error, result.error = some error ∧ result.raiseForFailure = .error error.raised := by
  cases result with
  | noBinderNeeded target => simp [outcome] at h
  | bound target binder => simp [outcome] at h
  | failed target binder error => exact ⟨error, rfl, rfl⟩

theorem raiseForFailure_of_ok (h : result.outcome ≠ "FAILED") :
    result.raiseForFailure = .ok result := by
  cases result with
  | noBinderNeeded target => rfl
  | bound target binder => rfl
  | failed target binder error => exact absurd rfl h

end BindResult

/-- A strict call and a lenient one, made in the same state, do the same and leave the same program
and the same host. What the lenient call returns as a failure, the strict one raises, as an error of
the class and with the message that the failure records and would itself raise; they agree on every
other result, and on every error that the lenient call does not handle. -/
theorem bind_strict_agrees (options : BindOptions) (program : Program) (host : Host) :
    let lenient := bind { options with strict := false } program host
    let strict := bind { options with strict := true } program host
    strict.program = lenient.program ∧ strict.host = lenient.host ∧
      (∃ deeds, Binds { options with strict := false } program host deeds lenient ∧
        Binds { options with strict := true } program host deeds strict) ∧
      (∀ result, lenient.result = .ok result → result.outcome = "FAILED" →
        ∃ error raised, result.error = some error ∧ strict.result = .error raised ∧
          raised.type = error.type ∧ raised.message = error.message ∧
          result.raiseForFailure = .error raised) ∧
      (∀ result, lenient.result = .ok result → result.outcome ≠ "FAILED" →
        strict.result = .ok result) ∧
      ∀ raised, lenient.result = .error raised → strict.result = .error raised := by
  intro lenient strict
  obtain ⟨deeds, outcome, hlenient⟩ := exists_binds { options with strict := false } program host
  obtain rfl : outcome = lenient := hlenient.eq_bind
  have hstrict : strict = lenient.raising := hlenient.strict.eq_bind.symm
  have hresult : strict.result = lenient.result.bind BindResult.raiseForFailure := by
    rw [hstrict, BindOutcome.raising]
  refine ⟨by rw [hstrict, BindOutcome.raising], by rw [hstrict, BindOutcome.raising],
    ⟨deeds, hlenient, hstrict ▸ hlenient.strict⟩, fun result hreturned hfailed => ?_,
    fun result hreturned hsound => ?_, fun raised hraised => ?_⟩
  · obtain ⟨error, herror, hraise⟩ := BindResult.raiseForFailure_of_failed hfailed
    refine ⟨error, error.raised, herror, ?_, error.raised_type, error.raised_message, hraise⟩
    rw [hresult, hreturned]
    exact hraise
  · rw [hresult, hreturned]
    exact BindResult.raiseForFailure_of_ok hsound
  · rw [hresult, hraised]
    rfl

private def counterClass : Class where
  identity := .created 0
  name := "Counter"
  path := "Counter"
  moduleName := "hall"
  attributes := [("opening", .marker { viewId := 3 }), ("closing", .marker { viewId := 4 }),
    ("find_by_identifier", .finder)]

private def counterBinder : Class where
  identity := .created 1
  name := "CounterBinding"
  path := "CounterBinding"
  moduleName := "counter_binding"
  constructor := some (.written ⟨[{ name := "target" }]⟩
    [.populate "opening" "find_by_identifier" 3, .populate "closing" "find_by_identifier" 4])

private def counterProgram : Program where
  modules := [("counter_binding", { effects := [.register .own (.type counterClass)
    (.type counterBinder)
    (.array [.array [.text "opening", .integer 3], .array [.text "closing", .integer 4]])] })]
  classes := [(("hall", "Counter"), counterClass)]
  loaded := [("hall", false)]

private def counterHost : Host where
  type := counterClass
  known := some [3]

/-- A binder that fails when it has assigned one of two fields: the strict call leaves that field
assigned as well. -/
theorem bind_strict_agrees_counter :
    let failure : BindError :=
      .instantiation "counter_binding.CounterBinding" (.of "LookupError" (some "no view with id 4"))
    (bind {} counterProgram counterHost).result = .ok (.failed "hall.Counter"
        (some "counter_binding.CounterBinding") failure) ∧
      (bind {} counterProgram counterHost).host.fields = [("opening", ⟨3, 1⟩)] ∧
      (bind { strict := true } counterProgram counterHost).host =
        (bind {} counterProgram counterHost).host ∧
      ∃ raised, (bind { strict := true } counterProgram counterHost).result = .error raised ∧
        raised.type = failure.type ∧ raised.message = failure.message := by
  intro failure
  have hresult : (bind {} counterProgram counterHost).result = .ok (.failed "hall.Counter"
      (some "counter_binding.CounterBinding") failure) := by decide +kernel
  obtain ⟨-, hhost, -, hraises, -, -⟩ := bind_strict_agrees {} counterProgram counterHost
  obtain ⟨error, raised, herror, hraised, htype, hmessage, -⟩ := hraises _ hresult rfl
  cases herror
  exact ⟨hresult, by decide +kernel, hhost, raised, hraised, htype, hmessage⟩

end ElementBinding
