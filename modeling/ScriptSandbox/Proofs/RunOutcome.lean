import ScriptSandbox.Proofs.RunCommand

namespace ScriptSandbox.Proofs.RunOutcome
open FileSteps RunStages Proofs.RunCommand

def InTime (timeout : Option Nat) (reply : Reply) : Prop :=
  ∀ seconds, timeout = some seconds → reply.milliseconds < seconds * 1000

/-- What becomes of a process, and the outcome of a run that it decides. That a process cannot be
started comes before the limit, and the limit before the way in which the process ends. -/
inductive Classified (x : Wasmer) : Except HostError Reply → Except Failure Output → Prop
  | refused {e : HostError} : Classified x (.error e) (.error (.sandboxLaunch x.binary e))
  | late {reply : Reply} {seconds : Nat} (limited : x.timeout = some seconds)
      (elapsed : seconds * 1000 ≤ reply.milliseconds) :
      Classified x (.ok reply) (.error (.sandboxTimeout seconds))
  | failed {reply : Reply} {code : UInt8} {out err : String} (in_time : InTime x.timeout reply)
      (exited : reply.ending = .exit code) (nonzero : code ≠ 0) (stdout : Shows reply.stdout out)
      (stderr : Shows reply.stderr err) :
      Classified x (.ok reply) (.error (.sandboxExecution (some code.toNat) out err))
  | killed {reply : Reply} {out err : String} (in_time : InTime x.timeout reply)
      (signalled : reply.ending = .signal) (stdout : Shows reply.stdout out)
      (stderr : Shows reply.stderr err) :
      Classified x (.ok reply) (.error (.sandboxExecution none out err))
  | succeeded {reply : Reply} {o : Output} (well : EndsWell x.timeout reply)
      (stdout : Shows reply.stdout o.stdout) (stderr : Shows reply.stderr o.stderr) :
      Classified x (.ok reply) (.ok o)

section
variable {x : Wasmer} {reply : Reply} {answered : Except HostError Reply}
  {outcome : Except Failure Output}

theorem expired_eq_some {seconds : Nat} : x.expired reply = some seconds ↔
    x.timeout = some seconds ∧ seconds * 1000 ≤ reply.milliseconds := by
  simp [Wasmer.expired, Option.filter_eq_some_iff]

theorem ended_of_classified (classified : Classified x answered outcome) :
    ended x answered = outcome := by
  cases classified with
  | refused => rfl
  | late limited elapsed =>
    simp only [ended, expired_eq_some.mpr ⟨limited, elapsed⟩]
  | failed in_time exited nonzero stdout stderr =>
    simp only [ended, expired_eq_none.mpr in_time, exited, Ending.exit.injEq, nonzero, if_false,
      Wasmer.status, stdout.text_eq, stderr.text_eq]
  | killed in_time signalled stdout stderr =>
    simp only [ended, expired_eq_none.mpr in_time, signalled, reduceCtorEq, if_false,
      Wasmer.status, stdout.text_eq, stderr.text_eq]
  | succeeded well stdout stderr =>
    rw [ended_eq_ok.mpr ⟨_, rfl, well, rfl⟩, ← stdout.text_eq, ← stderr.text_eq]

theorem classified_ended (x : Wasmer) (answered : Except HostError Reply) :
    Classified x answered (ended x answered) := by
  cases answered with
  | error e => exact .refused
  | ok reply =>
    have stdout := shows_decodeLossy reply.stdout
    have stderr := shows_decodeLossy reply.stderr
    cases late : x.expired reply with
    | some seconds =>
      obtain ⟨limited, elapsed⟩ := expired_eq_some.mp late
      simp only [ended, late]
      exact .late limited elapsed
    | none =>
      have in_time := expired_eq_none.mp late
      cases ending : reply.ending with
      | signal =>
        simp only [ended, late, ending, reduceCtorEq, if_false]
        exact .killed in_time ending stdout stderr
      | exit code =>
        by_cases zero : code = 0
        · subst zero
          simp only [ended, late, ending, if_true]
          exact .succeeded ⟨ending, in_time⟩ stdout stderr
        · simp only [ended, late, ending, Ending.exit.injEq, zero, if_false]
          exact .failed in_time ending zero stdout stderr

end

/-- A run starts its binary once, if that can be started, and hands it the arguments after `run`. It
has the one outcome that what becomes of the process decides; that is a success exactly if the
process ends in time with status zero. -/
theorem classified_run (h : Host) (x : Wasmer) (args : List String) (w : World) :
    (∀ outcome, Classified x (answer h w.tree x.binary ("run" :: args)) outcome ↔
      (after (x.run h args) w).1 = outcome) ∧
    ((∃ o, (after (x.run h args) w).1 = .ok o) ↔
      ∃ reply, answer h w.tree x.binary ("run" :: args) = .ok reply ∧ EndsWell x.timeout reply) ∧
    ∃ log, (after (x.run h args) w).2 =
      { w with launches := w.launches ++ [⟨x.binary, "run" :: args⟩], log := log } := by
  obtain ⟨log, ran⟩ := after_run (h := h) (w := w) x args
  rw [ran]
  refine ⟨fun outcome => ⟨ended_of_classified, ?_⟩, ?_, log, rfl⟩
  · intro same
    subst same
    exact classified_ended x _
  · simp only [ended_eq_ok]
    constructor
    · intro done
      obtain ⟨o, reply, answered, well, -⟩ := done
      exact ⟨reply, answered, well⟩
    · intro done
      obtain ⟨reply, answered, well⟩ := done
      exact ⟨_, reply, answered, well, rfl⟩

end ScriptSandbox.Proofs.RunOutcome
