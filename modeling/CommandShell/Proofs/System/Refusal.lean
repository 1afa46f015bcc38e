import CommandShell.System.Machine

/-!
When a write is refused. Only a pipe refuses anything, and only if it has a limit: where the
last reader stays to the end, all that is written goes in.
-/
namespace CommandShell

namespace Pipe

theorem room_lt_iff (pipe : Pipe) (count : Nat) :
    pipe.room count < count ↔ 0 < count ∧
      ∃ limit, pipe.limit = some limit ∧ limit < pipe.taken + pipe.unread.length + count := by
  unfold room
  cases pipe.limit with
  | none => simp
  | some limit =>
      simp only [Option.some.injEq, exists_eq_left']
      omega

end Pipe

namespace Machine

variable {machine : Machine} {handle : Handle} {bytes : Bytes}

theorem answer_pipe {number : Nat} (writer : machine.stream handle = .pipeWriter number) :
    machine.answer handle bytes =
      if (machine.pipe number).room bytes.length < bytes.length then .error .brokenPipe
      else .ok () := by
  unfold answer
  rw [writer]

theorem answer_of_noPipe (noPipe : ∀ number, machine.stream handle ≠ .pipeWriter number) :
    machine.answer handle bytes = .ok () := by
  unfold answer
  split
  · next number writer => exact absurd writer (noPipe number)
  · rfl

/-- Nothing but a pipe whose readers are gone refuses what is written. -/
theorem answer_error_iff {failure : Failure} :
    machine.answer handle bytes = .error failure ↔
      failure = .brokenPipe ∧ bytes ≠ [] ∧
        ∃ number limit, machine.stream handle = .pipeWriter number ∧
          (machine.pipe number).limit = some limit ∧
            limit < (machine.pipe number).taken + (machine.pipe number).unread.length +
              bytes.length := by
  by_cases writer : ∃ number, machine.stream handle = .pipeWriter number
  · obtain ⟨number, writer⟩ := writer
    have full := (machine.pipe number).room_lt_iff bytes.length
    rw [answer_pipe writer]
    constructor
    · intro refused
      split at refused
      · next less =>
          cases refused
          obtain ⟨some, limit, limited, beyond⟩ := full.mp less
          exact ⟨rfl, List.length_pos_iff.mp some, number, limit, writer, limited, beyond⟩
      · cases refused
    · rintro ⟨rfl, some, other, limit, same, limited, beyond⟩
      cases writer.symm.trans same
      rw [if_pos (full.mpr ⟨List.length_pos_iff.mpr some, limit, limited, beyond⟩)]
  · rw [answer_of_noPipe fun number here => writer ⟨number, here⟩]
    constructor
    · intro contra
      cases contra
    · rintro ⟨-, -, number, limit, here, -⟩
      exact absurd ⟨number, here⟩ writer

end Machine

end CommandShell
