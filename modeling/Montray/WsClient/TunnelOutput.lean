import Montray.Client.TunnelOutput
import Montray.Server.ExecCollector
import Montray.WsClient.Tunnel

/-!
# Montray.WsClient.TunnelOutput

The output of a tunnel process in both clients, whatever the chunks in which it is read.

The Go writers do what the Rust ones do (`push_write`, `push_eq_write`), so each fact is proved of
one of them.

* `readiness_matching`: the probe is reported once, with the chunk that completes it.
* `failure_output_tail`: the end of the output is kept, and whether there was more.
-/

namespace Montray
namespace WsClient

open Lib

/-! ## The readiness probe -/

def readinessProbeWriter (probe : List UInt8) : Mealy ReadinessProbeWriter (List UInt8) Bool where
  init := {}
  step := ReadinessProbeWriter.write probe

/-- What a writer knows of the output that it has been given. -/
structure ReadinessProbeWriter.Searched (probe given : List UInt8) (w : ReadinessProbeWriter) :
    Prop where
  ready : w.ready = true ↔ probe <:+: given
  tail : ¬ probe <:+: given → w.tail = given.rtake (probe.length - 1)

section Probe

variable {probe given : List UInt8} {w : ReadinessProbeWriter}

/-- A match may begin in the tail. -/
theorem ReadinessProbeWriter.Searched.found (h : w.Searched probe given) (hr : w.ready = false)
    (chunk : List UInt8) : probe <:+: w.tail ++ chunk ↔ probe <:+: given ++ chunk := by
  have hno : ¬ probe <:+: given := fun hi => Bool.false_ne_true (hr.symm.trans (h.ready.mpr hi))
  rw [h.tail hno, infix_append_rtake hno]

theorem ReadinessProbeWriter.Searched.write (h : w.Searched probe given) (chunk : List UInt8) :
    (w.write probe chunk).1.Searched probe (given ++ chunk) ∧
      ((w.write probe chunk).2 = true ↔ ¬ probe <:+: given ∧ probe <:+: given ++ chunk) := by
  unfold ReadinessProbeWriter.write
  cases hr : w.ready with
  | true =>
    have hi := h.ready.mp hr
    have hi' : probe <:+: given ++ chunk := List.infix_append_of_infix_left hi
    rw [if_pos rfl]
    exact ⟨⟨iff_of_true hr hi', fun hno => absurd hi' hno⟩, by simp [hi]⟩
  | false =>
    have hno : ¬ probe <:+: given := fun hi => Bool.false_ne_true (hr.symm.trans (h.ready.mpr hi))
    rw [if_neg Bool.false_ne_true]
    by_cases hfound : probe <:+: w.tail ++ chunk
    · have hi' := (h.found hr chunk).mp hfound
      simp only [if_pos hfound]
      exact ⟨⟨iff_of_true rfl hi', fun hno' => absurd hi' hno'⟩, by simp [hno, hi']⟩
    · have hno' : ¬ probe <:+: given ++ chunk := fun hi => hfound ((h.found hr chunk).mpr hi)
      simp only [if_neg hfound]
      refine ⟨⟨?_, fun _ => ?_⟩, ?_⟩
      · simp [hno']
      · rw [Client.drop_keep, h.tail hno, rtake_append_rtake]
      · simp [hno']

theorem readinessProbeWriter_searched (hne : probe ≠ []) (chunks : List (List UInt8)) :
    ((readinessProbeWriter probe).run chunks).Searched probe chunks.flatten := by
  have hinit : (readinessProbeWriter probe).init.Searched probe [] := by
    refine ⟨?_, fun _ => (List.rtake_nil _).symm⟩
    simp [readinessProbeWriter, hne]
  refine (readinessProbeWriter probe).chunks hinit ?_ chunks
  intro given w chunk h
  exact (h.write chunk).1

end Probe

/-- The Rust matcher as a Go writer. -/
def ofMatcher (m : Client.ProbeMatcher) : ReadinessProbeWriter := ⟨m.tail, m.complete⟩

theorem push_write (m : Client.ProbeMatcher) (bytes : List UInt8) :
    (ofMatcher m).write m.probe bytes = (ofMatcher (m.push bytes).1, (m.push bytes).2) ∧
      (m.push bytes).1.probe = m.probe := by
  have hsearch : (windows m.probe.length (m.tail ++ bytes)).any (· == m.probe) = true ↔
      m.probe <:+: m.tail ++ bytes := by
    rw [List.any_beq', List.contains_iff_mem, mem_windows]
  unfold ReadinessProbeWriter.write Client.ProbeMatcher.push ofMatcher
  cases hc : m.complete with
  | true => simp [hc]
  | false =>
    by_cases hfound : m.probe <:+: m.tail ++ bytes
    · simp [hfound, hsearch.mpr hfound]
    · have hno := fun h => hfound (hsearch.mp h)
      simp only [Bool.false_eq_true, if_false, if_neg hfound, if_neg hno, and_self]

theorem probeMatcher_run {probe : List UInt8} (hne : probe ≠ []) (chunks : List (List UInt8)) :
    ((Client.probeMatcher probe).run chunks).probe = probe ∧
      ofMatcher ((Client.probeMatcher probe).run chunks) =
        (readinessProbeWriter probe).run chunks := by
  induction chunks using List.reverseRecOn with
  | nil =>
    refine ⟨rfl, ?_⟩
    simp [ofMatcher, Client.probeMatcher, Client.ProbeMatcher.new, readinessProbeWriter, hne]
  | append_singleton before chunk ih =>
    obtain ⟨hprobe, hwriter⟩ := ih
    obtain ⟨hwrite, hkeep⟩ := push_write ((Client.probeMatcher probe).run before) chunk
    rw [hwriter, hprobe] at hwrite
    rw [Mealy.run_snoc, Mealy.run_snoc]
    exact ⟨hkeep.trans hprobe, (congrArg Prod.fst hwrite).symm⟩

theorem probeMatcher_step {probe : List UInt8} (hne : probe ≠ []) (before : List (List UInt8))
    (chunk : List UInt8) :
    ((Client.probeMatcher probe).step ((Client.probeMatcher probe).run before) chunk).2 =
      ((readinessProbeWriter probe).step ((readinessProbeWriter probe).run before) chunk).2 := by
  obtain ⟨hprobe, hwriter⟩ := probeMatcher_run hne before
  have hwrite := (push_write ((Client.probeMatcher probe).run before) chunk).1
  rw [hwriter, hprobe] at hwrite
  exact (congrArg Prod.snd hwrite).symm

/-- A machine that looks for the probe says so once, with the chunk after which all the output so
far has it, if there is such a chunk. Until then it keeps the last bytes, one less than the probe
has. -/
structure FindsOnce {σ : Type} (probe : List UInt8) (M : Mealy σ (List UInt8) Bool)
    (tail : σ → List UInt8) (chunks : List (List UInt8)) : Prop where
  once : (M.outputs chunks).count true = if probe <:+: chunks.flatten then 1 else 0
  first : ∀ before chunk after, chunks = before ++ chunk :: after →
    ((M.step (M.run before) chunk).2 = true ↔
      ¬ probe <:+: before.flatten ∧ probe <:+: before.flatten ++ chunk)
  tail : ∀ before after, chunks = before ++ after → ¬ probe <:+: before.flatten →
    tail (M.run before) =
      before.flatten.rtake (min (probe.length - 1) before.flatten.length)

theorem rtake_min (l : List UInt8) (n : Nat) : l.rtake (min n l.length) = l.rtake n := by
  rw [List.rtake, Client.drop_keep]

theorem findsOnce_of_step {σ : Type} {probe : List UInt8} (hne : probe ≠ [])
    {M : Mealy σ (List UInt8) Bool} {tail : σ → List UInt8}
    (hstep : ∀ before chunk, (M.step (M.run before) chunk).2 =
      ((readinessProbeWriter probe).step ((readinessProbeWriter probe).run before) chunk).2)
    (htail : ∀ before, tail (M.run before) = ((readinessProbeWriter probe).run before).tail)
    (chunks : List (List UInt8)) : FindsOnce probe M tail chunks := by
  have hfirst : ∀ before chunk, (M.step (M.run before) chunk).2 = true ↔
      ¬ probe <:+: before.flatten ∧ probe <:+: before.flatten ++ chunk := by
    intro before chunk
    rw [hstep]
    exact ((readinessProbeWriter_searched hne before).write chunk).2
  refine ⟨?_, fun before chunk _ _ => hfirst before chunk, ?_⟩
  · refine M.count_detected (by simpa using hne) ?_ hfirst chunks
    intro given chunk h
    exact List.infix_append_of_infix_left h
  · intro before after _ hno
    rw [htail, (readinessProbeWriter_searched hne before).tail hno, rtake_min]

/-- Readiness matching does not depend on the chunks, and both clients do the same. -/
theorem readiness_matching (probe : List UInt8) (hne : probe ≠ []) (chunks : List (List UInt8)) :
    FindsOnce probe (Client.probeMatcher probe) (·.tail) chunks ∧
      FindsOnce probe (readinessProbeWriter probe) (·.tail) chunks := by
  refine ⟨findsOnce_of_step hne (probeMatcher_step hne) (fun before => ?_) chunks,
    findsOnce_of_step hne (fun _ _ => rfl) (fun _ => rfl) chunks⟩
  exact congrArg ReadinessProbeWriter.tail (probeMatcher_run hne before).2

/-- A probe that overlaps itself, in two chunks. -/
theorem readiness_matching_overlap :
    ((Client.probeMatcher [1, 1, 2]).outputs [[1, 1], [1, 2, 1, 1, 2]]).count true = 1 :=
  (readiness_matching [1, 1, 2] (by decide) [[1, 1], [1, 2, 1, 1, 2]]).1.once.trans (by decide)

/-! ## The output of a failure -/

def maxTunnelFailureOutputBytes : Nat := 1024

structure TailOutputWriter where
  tail : List UInt8 := []
  truncated : Bool := false
  deriving DecidableEq, Repr

/-- `Write`, with the number of bytes that it reports. -/
def TailOutputWriter.write (w : TailOutputWriter) (p : List UInt8) : TailOutputWriter × Nat :=
  let written := p.length
  if maxTunnelFailureOutputBytes ≤ p.length then
    ({ tail := p.drop (p.length - maxTunnelFailureOutputBytes), truncated := true }, written)
  else
    let overflow : Int := w.tail.length + p.length - maxTunnelFailureOutputBytes
    let w := if 0 < overflow then { tail := w.tail.drop overflow.toNat, truncated := true } else w
    ({ w with tail := w.tail ++ p }, written)

/-- `String`; `text` reads bytes that need not be valid UTF-8. -/
def TailOutputWriter.string (text : List UInt8 → String) (w : TailOutputWriter) : String :=
  let output := Exec.trimSpace (text w.tail)
  if output ≠ "" ∧ w.truncated then "…" ++ output else output

def tailOutputWriter : Mealy TailOutputWriter (List UInt8) Nat where
  init := {}
  step := TailOutputWriter.write

/-- The Rust buffer as a Go writer. -/
def ofBuffer (b : Client.TailBuffer) : TailOutputWriter := ⟨b.bytes, b.truncated⟩

theorem push_eq_write (b : Client.TailBuffer) (bytes : List UInt8) :
    (ofBuffer b).write bytes = (ofBuffer (b.push bytes), bytes.length) := by
  have hmax : maxTunnelFailureOutputBytes = Client.maxFailureOutputBytes := rfl
  unfold TailOutputWriter.write Client.TailBuffer.push
  rw [hmax]
  by_cases hlong : Client.maxFailureOutputBytes ≤ bytes.length
  · rw [if_pos hlong, if_pos hlong, ofBuffer]
  · rw [if_neg hlong, if_neg hlong]
    -- the difference of the lengths is an integer here, a saturated number there
    by_cases hover : 0 < b.bytes.length + bytes.length - Client.maxFailureOutputBytes
    · have hint : (0 : Int) < b.bytes.length + bytes.length - Client.maxFailureOutputBytes := by
        omega
      have hnat : (b.bytes.length + bytes.length - Client.maxFailureOutputBytes : Int).toNat =
          b.bytes.length + bytes.length - Client.maxFailureOutputBytes := by
        omega
      simp only [ofBuffer, if_pos hover, if_pos hint, hnat]
    · have hint : ¬ (0 : Int) < b.bytes.length + bytes.length - Client.maxFailureOutputBytes := by
        omega
      simp only [ofBuffer, hover, hint, if_false]

theorem tailBuffer_run (chunks : List (List UInt8)) :
    tailOutputWriter.run chunks = ofBuffer (Client.tailBuffer.run chunks) := by
  induction chunks using List.reverseRecOn with
  | nil => rfl
  | append_singleton before chunk ih =>
    rw [Mealy.run_snoc, Mealy.run_snoc, ih]
    exact congrArg Prod.fst (push_eq_write _ chunk)

/-- The text of an output, as it is to be shown. -/
def failureText (trim : String → String) (text : List UInt8 → String) (output : List UInt8) :
    String :=
  let shown := trim (text (output.rtake 1024))
  if 1024 < output.length ∧ shown ≠ "" then "…" ++ shown else shown

/-- The end of the output is kept, and whether there was more, and what is shown depends on the
output alone, if and only if it is not one chunk that is all of the output and fills the buffer. -/
theorem failure_output_tail (text : List UInt8 → String) (chunks : List (List UInt8)) :
    (let output := chunks.flatten
      let rust := Client.tailBuffer.run chunks
      let go := tailOutputWriter.run chunks
      (rust.bytes = output.rtake (min 1024 output.length) ∧
        (rust.truncated = true ↔ 1024 < output.length) ∧
        rust.text text = failureText Client.trim text output) ∧
      (go.tail = output.rtake (min 1024 output.length) ∧
        (go.truncated = true ↔ 1024 < output.length) ∧
        go.string text = failureText Exec.trimSpace text output)) ↔
    ∀ chunk ∈ chunks, chunk.length = 1024 → chunks.flatten.length ≠ 1024 := by
  have hholds := Client.tailBuffer_holds chunks
  constructor
  · -- the flag is set by a chunk that fills the buffer, and then there was more
    rintro ⟨⟨-, htruncated, -⟩, -⟩ chunk hc hlen hfull
    have hmore := htruncated.mp (hholds.truncated.mpr (.inr ⟨hfull, chunk, hc, hlen⟩))
    omega
  · intro h output rust go
    have hgo : go = ofBuffer rust := tailBuffer_run chunks
    have hbytes : rust.bytes = output.rtake 1024 := hholds.bytes
    have htruncated : rust.truncated = true ↔ 1024 < output.length := by
      refine hholds.truncated.trans ⟨?_, .inl⟩
      rintro (hmore | ⟨hfull, chunk, hc, hlen⟩)
      · exact hmore
      · exact absurd hfull (h chunk hc hlen)
    rw [rtake_min]
    refine ⟨⟨hbytes, htruncated, ?_⟩, ?_⟩
    · simp only [Client.TailBuffer.text, failureText, hbytes, htruncated]
    · rw [hgo]
      refine ⟨hbytes, htruncated, ?_⟩
      simp only [TailOutputWriter.string, failureText, ofBuffer, hbytes, htruncated, and_comm]

/-- Output of so many bytes, all of them the letter x. -/
def letters (n : Nat) : List UInt8 := List.replicate n 120

theorem length_letters (n : Nat) : (letters n).length = n := List.length_replicate

theorem letters_append (m n : Nat) : letters m ++ letters n = letters (m + n) :=
  List.replicate_append_replicate

theorem failure_output_tail_more :
    (Client.tailBuffer.run [letters 1000, letters 30]).truncated = true ∧
      (tailOutputWriter.run [letters 1000, letters 30]).tail.length = 1024 := by
  have hlen : [letters 1000, letters 30].flatten.length = 1030 := by
    rw [List.flatten_cons, List.flatten_singleton, letters_append, length_letters]
  have h := (failure_output_tail (fun _ => "") [letters 1000, letters 30]).mpr fun _ _ _ => by
    rw [hlen]
    decide
  refine ⟨h.1.2.1.mpr (by rw [hlen]; decide), ?_⟩
  rw [h.2.1, length_rtake, hlen]
  decide

/-- Both clients trim the same characters. -/
theorem trimSpace_eq_trim (s : String) : Exec.trimSpace s = Client.trim s := by
  have hspace : Exec.isSpace = Client.isWhitespace := by
    funext c
    simp only [Exec.isSpace, Client.isWhitespace]
  rw [Exec.trimSpace, Client.trim, hspace]

theorem string_eq_text (text : List UInt8 → String) (b : Client.TailBuffer) :
    (ofBuffer b).string text = b.text text := by
  simp only [TailOutputWriter.string, Client.TailBuffer.text, ofBuffer, trimSpace_eq_trim, and_comm]

/-- Bytes as the characters of the same numbers. -/
def latin1 (bytes : List UInt8) : String := String.ofList (bytes.map fun b => Char.ofNat b.toNat)

theorem trim_latin1_letters (n : Nat) : Client.trim (latin1 (letters n)) = latin1 (letters n) := by
  refine Client.trim_eq_self fun c hc => ?_
  rw [latin1, letters, List.map_replicate, String.toList_ofList, List.mem_replicate] at hc
  rw [hc.2]
  decide

theorem latin1_letters_ne {n : Nat} (h : n ≠ 0) : latin1 (letters n) ≠ "" := by
  intro hempty
  have hlen := congrArg (fun s => s.toList.length) hempty
  rw [latin1, String.toList_ofList, List.length_map, length_letters] at hlen
  exact h hlen

theorem text_letters {n : Nat} (h : n ≠ 0) (truncated : Bool) :
    (⟨letters n, truncated⟩ : Client.TailBuffer).text latin1 =
      if truncated then "…" ++ latin1 (letters n) else latin1 (letters n) := by
  simp only [Client.TailBuffer.text, trim_latin1_letters, ne_eq, latin1_letters_ne h,
    not_false_eq_true, and_true]

/-- Nothing of the output is lost, and yet it is shown with an ellipsis when it comes in one chunk;
in two it is shown without. -/
theorem failure_output_full_chunk :
    let whole := [letters 1024]
    let halves := [letters 512, letters 512]
    whole.flatten = halves.flatten ∧
      ((Client.tailBuffer.run whole).bytes = whole.flatten ∧
        (Client.tailBuffer.run whole).truncated = true ∧
        (Client.tailBuffer.run halves).truncated = false) ∧
      ((tailOutputWriter.run whole).tail = whole.flatten ∧
        (tailOutputWriter.run whole).truncated = true ∧
        (tailOutputWriter.run halves).truncated = false) ∧
      (tailOutputWriter.run whole).string latin1 =
        "…" ++ (tailOutputWriter.run halves).string latin1 := by
  intro whole halves
  have hwhole : whole.flatten = letters 1024 := List.flatten_singleton
  have hhalves : halves.flatten = letters 1024 := by
    rw [List.flatten_cons, List.flatten_singleton, letters_append]
  have hbytes : ∀ chunks, chunks.flatten = letters 1024 →
      (Client.tailBuffer.run chunks).bytes = letters 1024 := by
    intro chunks heq
    rw [(Client.tailBuffer_holds chunks).bytes, heq]
    exact rtake_of_length_le (length_letters _).le
  have htruncated : (Client.tailBuffer.run whole).truncated = true := by
    refine (Client.tailBuffer_holds whole).truncated.mpr (.inr ⟨?_, ?_⟩)
    · rw [hwhole]
      exact length_letters _
    · exact ⟨_, List.mem_singleton_self _, length_letters _⟩
  have hcomplete : (Client.tailBuffer.run halves).truncated = false := by
    refine Bool.eq_false_iff.mpr fun h => ?_
    rcases (Client.tailBuffer_holds halves).truncated.mp h with hmore | ⟨-, chunk, hc, hfull⟩
    · rw [hhalves, length_letters] at hmore
      exact absurd hmore (by decide)
    · have hc : chunk = letters 512 := by
        rcases List.mem_cons.mp hc with hc | hc
        · exact hc
        · exact List.mem_singleton.mp hc
      rw [hc, length_letters] at hfull
      exact absurd hfull (by decide)
  have hrun : Client.tailBuffer.run whole = ⟨letters 1024, true⟩ := by
    rw [← hbytes whole hwhole, ← htruncated]
  have hrun' : Client.tailBuffer.run halves = ⟨letters 1024, false⟩ := by
    rw [← hbytes halves hhalves, ← hcomplete]
  rw [tailBuffer_run, tailBuffer_run, string_eq_text, string_eq_text, hrun, hrun', hwhole, hhalves,
    text_letters (by decide), text_letters (by decide)]
  exact ⟨rfl, ⟨rfl, rfl, rfl⟩, ⟨rfl, rfl, rfl⟩, rfl⟩

end WsClient
end Montray
