import Montray.Lib.Chunks
import Montray.Client.BearerToken

/-!
# Montray.Client.TunnelOutput

What the Rust client makes of the output of a tunnel process, read by read: `ProbeMatcher` looks for
the readiness probe, `TailBuffer` keeps the end of the output for the incident of a failure.

How bytes that are not valid UTF-8 are shown is left to a parameter: it is the standard library's
`from_utf8_lossy`.
-/

namespace Montray
namespace Client

open Lib

/-! ## The readiness probe -/

structure ProbeMatcher where
  probe : List UInt8
  tail : List UInt8 := []
  complete : Bool
  deriving DecidableEq, Repr

namespace ProbeMatcher

def new (probe : List UInt8) : ProbeMatcher where
  probe := probe
  complete := probe.isEmpty

def push (m : ProbeMatcher) (bytes : List UInt8) : ProbeMatcher × Bool :=
  if m.complete then (m, false)
  else
    let combined := m.tail ++ bytes
    if (windows m.probe.length combined).any (· == m.probe) then
      ({ m with complete := true, tail := [] }, true)
    else
      let keep := min (m.probe.length - 1) combined.length
      ({ m with tail := combined.drop (combined.length - keep) }, false)

end ProbeMatcher

def probeMatcher (probe : List UInt8) : Mealy ProbeMatcher (List UInt8) Bool where
  init := .new probe
  step := ProbeMatcher.push

/-! ## The output of a failure -/

def maxFailureOutputBytes : Nat := 1024

structure TailBuffer where
  bytes : List UInt8 := []
  truncated : Bool := false
  deriving DecidableEq, Repr

namespace TailBuffer

def push (b : TailBuffer) (bytes : List UInt8) : TailBuffer :=
  if maxFailureOutputBytes ≤ bytes.length then
    { bytes := bytes.drop (bytes.length - maxFailureOutputBytes), truncated := true }
  else
    let overflow := b.bytes.length + bytes.length - maxFailureOutputBytes
    let b := if 0 < overflow then { bytes := b.bytes.drop overflow, truncated := true } else b
    { b with bytes := b.bytes ++ bytes }

def text (fromUtf8Lossy : List UInt8 → String) (b : TailBuffer) : String :=
  let text := trim (fromUtf8Lossy b.bytes)
  if b.truncated ∧ text ≠ "" then "…" ++ text else text

end TailBuffer

def tailBuffer : Mealy TailBuffer (List UInt8) Unit where
  init := {}
  step b bytes := (b.push bytes, ())

/-! ## What is kept of the output -/

theorem drop_keep (l : List UInt8) (n : Nat) : l.drop (l.length - min n l.length) = l.rtake n := by
  rw [List.rtake]
  congr 1
  omega

/-- The buffer has the end of the output, and knows that there was more. It also says so where one
chunk is all of the output and fills it. -/
structure TailBuffer.Holds (chunks : List (List UInt8)) (b : TailBuffer) : Prop where
  bytes : b.bytes = chunks.flatten.rtake maxFailureOutputBytes
  truncated : b.truncated = true ↔
    maxFailureOutputBytes < chunks.flatten.length ∨
      chunks.flatten.length = maxFailureOutputBytes ∧
        ∃ chunk ∈ chunks, chunk.length = maxFailureOutputBytes

theorem length_le_flatten {chunks : List (List UInt8)} {chunk : List UInt8} (h : chunk ∈ chunks) :
    chunk.length ≤ chunks.flatten.length :=
  (List.sublist_flatten_of_mem h).length_le

/-- A short chunk is not all of an output that fills the buffer. -/
theorem exists_length_append {chunks : List (List UInt8)} {chunk : List UInt8} {n : Nat}
    (h : chunk.length < n) :
    (∃ c ∈ chunks ++ [chunk], c.length = n) ↔ ∃ c ∈ chunks, c.length = n := by
  constructor
  · rintro ⟨c, hc, hlen⟩
    rcases List.mem_append.mp hc with hc | hc
    · exact ⟨c, hc, hlen⟩
    · rw [List.mem_singleton.mp hc] at hlen
      omega
  · rintro ⟨c, hc, hlen⟩
    exact ⟨c, List.mem_append_left _ hc, hlen⟩

theorem TailBuffer.Holds.push {chunks : List (List UInt8)} {b : TailBuffer} (h : b.Holds chunks)
    (chunk : List UInt8) : (b.push chunk).Holds (chunks ++ [chunk]) := by
  have hlen : b.bytes.length = min maxFailureOutputBytes chunks.flatten.length := by
    rw [h.bytes, length_rtake]
  have hflat : (chunks ++ [chunk]).flatten = chunks.flatten ++ chunk := by
    rw [List.flatten_append, List.flatten_singleton]
  unfold TailBuffer.push
  by_cases hlong : maxFailureOutputBytes ≤ chunk.length
  · rw [if_pos hlong]
    refine ⟨?_, ?_⟩
    · rw [hflat, rtake_append_of_le hlong, List.rtake]
    · rw [hflat, List.length_append]
      refine iff_of_true rfl ?_
      by_cases hexact : chunks.flatten.length + chunk.length = maxFailureOutputBytes
      · exact .inr ⟨hexact, chunk, by simp, by omega⟩
      · exact .inl (by omega)
  · rw [if_neg hlong]
    by_cases hover : 0 < b.bytes.length + chunk.length - maxFailureOutputBytes
    · simp only [if_pos hover]
      refine ⟨?_, ?_⟩
      · show b.bytes.drop _ ++ chunk = _
        rw [hflat, ← rtake_append_rtake, ← h.bytes, List.rtake, List.length_append,
          List.drop_append_of_le_length (by omega)]
      · rw [hflat, List.length_append]
        exact iff_of_true rfl (.inl (by omega))
    · simp only [if_neg hover]
      -- either everything fits, or the buffer is full and the chunk is empty
      have hmore : maxFailureOutputBytes < chunks.flatten.length ↔
          maxFailureOutputBytes < chunks.flatten.length + chunk.length := by omega
      have hfull : chunks.flatten.length = maxFailureOutputBytes →
          chunks.flatten.length + chunk.length = maxFailureOutputBytes := by omega
      refine ⟨?_, ?_⟩
      · show b.bytes ++ chunk = _
        rw [hflat, ← rtake_append_rtake, ← h.bytes, rtake_of_length_le]
        rw [List.length_append]
        omega
      · rw [hflat, List.length_append, exists_length_append (Nat.lt_of_not_le hlong), ← hmore]
        refine h.truncated.trans (or_congr_right (and_congr_left ?_))
        rintro ⟨c, hc, hcl⟩
        have hle := length_le_flatten hc
        exact ⟨hfull, fun heq => by omega⟩

theorem tailBuffer_holds (chunks : List (List UInt8)) :
    (tailBuffer.run chunks).Holds chunks := by
  refine tailBuffer.history ⟨rfl, by decide⟩ ?_ chunks
  intro before chunk h
  exact h.push chunk

end Client
end Montray
