import Montray.Lib.Chunks
import Montray.Server.ExecCollector

/-!
# Montray.Server.ExecOutput

The first line of a command's output, whatever the writes in which it arrives.

A newline and the limit can both end the capture, and either can come in any write. `Captured` says
what the writer has of the output so far, in terms of the output alone.

* `first_line_captured`: what is kept of the first line, and what every `Write` reports.
* `runCommand_output`: the item of an execution depends on the output, not on the writes.
-/

namespace Montray
namespace Exec

open Lib

def firstLineWriter : Mealy FirstLineWriter (List UInt8) Nat where
  init := {}
  step := FirstLineWriter.write

/-- The bytes before the first newline. -/
def firstLine (output : List UInt8) : List UInt8 := output.takeWhile (· != newline)

theorem upToNewline_eq (complete : Bool) (p : List UInt8) :
    upToNewline complete p = (firstLine p, decide (newline ∈ p) || complete) := by
  unfold upToNewline firstLine
  split
  · rename_i i hi
    obtain ⟨hlt, hidx⟩ := List.findIdx?_eq_some_iff_findIdx_eq.mp hi
    have hmem : newline ∈ p := by
      by_contra hno
      rw [List.findIdx?_eq_none_iff.mpr] at hi
      · cases hi
      · intro b hb
        exact beq_false_of_ne fun heq => hno (heq ▸ hb)
    have hnot : (fun b : UInt8 => !(b != newline)) = (· == newline) := by
      funext b
      rw [bne, Bool.not_not]
    rw [List.takeWhile_eq_take_findIdx_not, hnot, hidx, decide_eq_true hmem, Bool.true_or]
  · rename_i hnone
    have hno : ∀ b ∈ p, b ≠ newline := fun b hb =>
      ne_of_beq_false (List.findIdx?_eq_none_iff.mp hnone b hb)
    rw [List.takeWhile_eq_self_iff.mpr fun b hb => bne_iff_ne.mpr (hno b hb)]
    simp only [show newline ∉ p from fun hmem => hno newline hmem rfl, decide_false, Bool.false_or]

/-- A write before the line is complete. -/
theorem write_open {w : FirstLineWriter} (hc : w.complete = false) (p : List UInt8) :
    (w.write p).1 =
      if maxOutputLineBytes - w.line.length < (firstLine p).length then
        { line := w.line ++ (firstLine p).take (maxOutputLineBytes - w.line.length),
          complete := true, truncated := true }
      else { w with line := w.line ++ firstLine p, complete := decide (newline ∈ p) } := by
  rw [FirstLineWriter.write, upToNewline_eq, if_neg (by simp [hc])]
  simp only [hc, Bool.or_false]
  split_ifs <;> rfl

theorem write_complete {w : FirstLineWriter} (hc : w.complete = true) (p : List UInt8) :
    (w.write p).1 = w := by
  rw [FirstLineWriter.write, if_pos hc]

/-- Every write is accepted as a whole. -/
theorem write_written (w : FirstLineWriter) (p : List UInt8) : (w.write p).2 = p.length := by
  unfold FirstLineWriter.write
  split
  · rfl
  · dsimp only
    split <;> rfl

/-! ## What is captured -/

theorem firstLine_append_of_mem {given p : List UInt8} (h : newline ∈ given) :
    firstLine (given ++ p) = firstLine given := by
  rw [firstLine, List.takeWhile_append, if_neg]
  · rfl
  · intro hlen
    have hall := List.takeWhile_eq_self_iff.mp ((List.takeWhile_prefix _).eq_of_length hlen)
    exact absurd (hall newline h) (by simp)

theorem firstLine_eq_self {given : List UInt8} (h : newline ∉ given) : firstLine given = given :=
  List.takeWhile_eq_self_iff.mpr fun _ hb => bne_iff_ne.mpr fun heq => h (heq ▸ hb)

theorem firstLine_append_of_not_mem {given p : List UInt8} (h : newline ∉ given) :
    firstLine (given ++ p) = given ++ firstLine p := by
  have hself : given.takeWhile (· != newline) = given := firstLine_eq_self h
  rw [firstLine, List.takeWhile_append, if_pos (congrArg List.length hself)]
  rfl

structure FirstLineWriter.Captured (given : List UInt8) (w : FirstLineWriter) : Prop where
  line : w.line = (firstLine given).take maxOutputLineBytes
  truncated : w.truncated = true ↔ maxOutputLineBytes < (firstLine given).length
  complete : w.complete = true ↔ newline ∈ given ∨ maxOutputLineBytes < (firstLine given).length

section Write

variable {given : List UInt8} {w : FirstLineWriter}

/-- After the line is complete, more output is of no concern. -/
theorem FirstLineWriter.Captured.append (h : w.Captured given) (hc : w.complete = true)
    (p : List UInt8) : w.Captured (given ++ p) := by
  by_cases hmem : newline ∈ given
  · have hsame := firstLine_append_of_mem (p := p) hmem
    refine ⟨by rw [hsame]; exact h.line, by rw [hsame]; exact h.truncated, ?_⟩
    exact iff_of_true hc (.inl (List.mem_append_left p hmem))
  · have hlong := (h.complete.mp hc).resolve_left hmem
    have hself := firstLine_eq_self hmem
    have hlonger : maxOutputLineBytes < (firstLine (given ++ p)).length := by
      rw [firstLine_append_of_not_mem hmem, List.length_append, ← hself]
      omega
    refine ⟨?_, iff_of_true (h.truncated.mpr hlong) hlonger, iff_of_true hc (.inr hlonger)⟩
    rw [hself] at hlong
    rw [h.line, hself, firstLine_append_of_not_mem hmem, List.take_append_of_le_length hlong.le]

theorem FirstLineWriter.Captured.write (h : w.Captured given) (p : List UInt8) :
    (w.write p).1.Captured (given ++ p) := by
  cases hc : w.complete with
  | true =>
    rw [write_complete hc]
    exact h.append hc p
  | false =>
    have hopen : ¬ (newline ∈ given ∨ maxOutputLineBytes < (firstLine given).length) :=
      fun hend => Bool.false_ne_true (hc.symm.trans (h.complete.mpr hend))
    obtain ⟨hmem, hshort⟩ := not_or.mp hopen
    have hself := firstLine_eq_self hmem
    have hline : w.line = given := by
      rw [h.line, hself, List.take_of_length_le]
      rw [hself] at hshort
      omega
    have happend := firstLine_append_of_not_mem (p := p) hmem
    have hle : given.length ≤ maxOutputLineBytes := by
      rw [hself] at hshort
      omega
    have hopened : w.truncated = false := by
      refine Bool.eq_false_iff.mpr fun ht => hshort (h.truncated.mp ht)
    rw [write_open hc, hline]
    by_cases hover : maxOutputLineBytes - given.length < (firstLine p).length
    · have hlong : maxOutputLineBytes < (firstLine (given ++ p)).length := by
        rw [happend, List.length_append]
        omega
      rw [if_pos hover]
      refine ⟨?_, iff_of_true rfl hlong, iff_of_true rfl (.inr hlong)⟩
      rw [happend, List.take_append, List.take_of_length_le hle]
    · have hfits : ¬ maxOutputLineBytes < (firstLine (given ++ p)).length := by
        rw [happend, List.length_append]
        omega
      rw [if_neg hover]
      refine ⟨?_, iff_of_false (by simp [hopened]) hfits, ?_⟩
      · rw [List.take_of_length_le (Nat.le_of_not_lt hfits), happend]
      · simp [hfits, hmem]

theorem firstLineWriter_captured (writes : List (List UInt8)) :
    (firstLineWriter.run writes).Captured writes.flatten := by
  have hinit : firstLineWriter.init.Captured [] := ⟨rfl, by decide, by decide⟩
  refine firstLineWriter.chunks hinit ?_ writes
  intro given w p h
  exact h.write p

end Write

/-- First-line capture does not depend on how the output is split: the first bytes of the first line
are kept, `truncated` says whether it has more, and every `Write` reports all of its input. -/
theorem first_line_captured (writes : List (List UInt8)) :
    let line := firstLine writes.flatten
    let w := firstLineWriter.run writes
    w.line = line.take (min 200 line.length) ∧ (w.truncated = true ↔ 200 < line.length) ∧
      firstLineWriter.outputs writes = writes.map List.length := by
  intro line w
  have hcaptured : w.Captured writes.flatten := firstLineWriter_captured writes
  refine ⟨?_, hcaptured.truncated, ?_⟩
  · rw [hcaptured.line, ← List.take_take, List.take_length]
    rfl
  · induction writes using List.reverseRecOn with
    | nil => rfl
    | append_singleton before p ih =>
      rw [Mealy.outputs_snoc, ih (firstLineWriter_captured before), List.map_append,
        List.map_singleton]
      congr 2
      exact write_written _ p

/-- The writes of an execution as the collector makes them. -/
theorem foldl_write (writes : List (List UInt8)) :
    writes.foldl (fun w p => (FirstLineWriter.write w p).1) {} = firstLineWriter.run writes := by
  induction writes using List.reverseRecOn with
  | nil => rfl
  | append_singleton before p ih =>
    rw [List.foldl_append, ih, Mealy.run_snoc]
    rfl

theorem runCommand_output (text : List UInt8 → String) (c : CollectorParams) (exitCode : Int64)
    {writes writes' : List (List UInt8)} (h : writes.flatten = writes'.flatten) :
    runCommand text c (.exited exitCode writes) = runCommand text c (.exited exitCode writes') := by
  have hw := firstLineWriter_captured writes
  have hw' := firstLineWriter_captured writes'
  have hline : (firstLineWriter.run writes).line = (firstLineWriter.run writes').line := by
    rw [hw.line, hw'.line, h]
  have htruncated : (firstLineWriter.run writes).truncated =
      (firstLineWriter.run writes').truncated := by
    rw [Bool.eq_iff_iff, hw.truncated, hw'.truncated, h]
  simp only [runCommand, foldl_write, FirstLineWriter.string, hline, htruncated]

end Exec
end Montray
