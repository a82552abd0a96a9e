import Montray.Lib.Sequences
import Montray.Client.MigrationBound

/-!
# Montray.Client.MigrationTermination

When `migrate_salmon_config` returns.

If the new directory is inside the former one, at `S/r`, then what is copied to it is in the tree
that is being read: the copy of `S` goes to `S/r`, the copy of `S/r` to `S/r/r`, and so on. This has
no end unless something that is not a directory is in the way (`Feeds`). Everywhere else, only
finitely many entries can come to be below the former directory.

* `closed_apart`, `closed_beside`, `closed_blocked`: what can come to be.
* `Starts.endless`: the migration that does not return.
* `migration_terminates`: when a migration returns, and how much it creates.
* `migration_into_itself`, `echo_exceeds`: a migration without an end, and one that returns but
  creates more than there was to copy.
-/

namespace Montray
namespace Client
namespace Setup
namespace Walk

open Lib

section Conditions

variable (leads : Path → Path) (files₀ : Files) (S D : Path) (m : String)

/-- The new directory is inside the former one, and the names in between, over and over, meet
nothing but directories. -/
def Feeds : Prop :=
  ∃ r, r ≠ [] ∧ D = S ++ r ∧ ∀ k,
    (files₀ (S ++ periodic r k) = none ∨ files₀ (S ++ periodic r k) = some .dir) ∧
      S ++ periodic r k ≠ D ++ [m]

/-- No link in the new directory is at the place of a directory, and none that leads nowhere at the
place of a file. Where the directories feed each other, none is at the place of what may come to
be. -/
def NoLinks : Prop :=
  ∀ q target, files₀ (D ++ q) = some (.symlink target) →
    files₀ (S ++ q) ≠ some .dir ∧
      (FileAt (files₀ (S ++ q)) → files₀ (leads (D ++ q)) ≠ none) ∧
      (files₀ (S ++ q) = none → Apart files₀ S D)

end Conditions

/-! ## What can come to be -/

section Possible

variable {leads : Path → Path} {files₀ : Files} {S D : Path} {m : String} {tree : Finset Path}

/-- Two paths that meet. -/
theorem prefix_of_append_eq {q q' : Path} (h : D ++ q = S ++ q') (hS : S <+: D → S = D) :
    ∃ u, S = D ++ u ∧ q = u ++ q' := by
  rcases List.append_eq_append_iff.mp h with ⟨u, hu, hq⟩ | ⟨u, hu, hq⟩
  · exact ⟨u, hu, hq⟩
  · obtain rfl := hS ⟨u, hu.symm⟩
    exact ⟨[], (List.append_nil _).symm, List.append_cancel_left h⟩

theorem eq_nil_of_way {q : Path} (hS : S <+: D → S = D) (h : S ++ q <+: D) : q = [] := by
  have hlen := h.length_le
  rw [← hS ((List.prefix_append S q).trans h), List.length_append] at hlen
  exact List.length_eq_zero_iff.mp (by omega)

/-- Nothing is copied into the former directory. -/
theorem closed_apart (hapart : Apart files₀ S D) (hlinks : NoLinks leads files₀ S D)
    (habsent : files₀ (D ++ [m]) = none) :
    Closed leads files₀ S D m fun q => files₀ (S ++ q) ≠ none ∨ S ++ q = D ++ [m] where
  old q _ h := .inl h
  way q hq h := absurd (eq_nil_of_way hapart.notBelow h) hq
  config q _ h := .inr h
  copy q q' hq' hq heq hdirs := by
    obtain ⟨u, hS, rfl⟩ := prefix_of_append_eq heq hapart.notBelow
    by_cases hu : u = []
    · rw [hu] at hq
      exact hq
    · -- the copy of `D/u/u` would come into the former directory
      obtain ⟨hpossible, hdir, hne⟩ := hdirs u (List.prefix_append u q')
        (fun h => hq' (List.self_eq_append_right.mp h)) hu
      exact absurd (hdir.resolve_left (hpossible.resolve_right hne)) (hapart.noEcho u hu hS)
  place q target hq hpossible hlink := by
    obtain ⟨hdir, hfile, -⟩ := hlinks q target hlink
    refine ⟨hpossible.resolve_right fun hnew => ?_, hdir, hfile⟩
    rw [(eq_of_entry hapart.notBelow hq hnew).2, habsent] at hlink
    cases hlink

/-- The new directory is not inside the former one, so that what is copied moves up. -/
theorem closed_beside (htree : Tree files₀ S tree) (hS : S <+: D → S = D)
    (hlinks : NoLinks leads files₀ S D) (hnot : ¬Apart files₀ S D) :
    Closed leads files₀ S D m fun q => q = [m] ∨ ∃ t ∈ tree, q <:+ t where
  old q hq h := .inr ⟨q, (htree q).mpr ⟨hq, h⟩, List.suffix_rfl⟩
  way q hq h := absurd (eq_nil_of_way hS h) hq
  config q hq h := .inl (eq_of_entry hS hq h).2
  copy q q' hq' hq heq _ := by
    obtain ⟨u, -, rfl⟩ := prefix_of_append_eq heq hS
    rcases hq with hm | ⟨t, ht, hsuffix⟩
    · rcases List.append_eq_singleton_iff.mp hm with ⟨-, hm⟩ | ⟨-, hnil⟩
      · exact .inl hm
      · exact absurd hnil hq'
    · exact .inr ⟨t, ht, (List.suffix_append u q').trans hsuffix⟩
  place q target _ _ hlink := by
    obtain ⟨hdir, hfile, hnone⟩ := hlinks q target hlink
    exact ⟨fun h => hnot (hnone h), hdir, hfile⟩

/-- The new directory is inside the former one, and something is in the way of the copies. -/
theorem closed_blocked {r : Path} {k : Nat} (htree : Tree files₀ S tree) (hr : r ≠ [])
    (hD : D = S ++ r) (hk : k ≠ 0)
    (hblocked : ¬((files₀ (S ++ periodic r k) = none ∨ files₀ (S ++ periodic r k) = some .dir) ∧
      S ++ periodic r k ≠ D ++ [m])) (hlinks : NoLinks leads files₀ S D) :
    Closed leads files₀ S D m fun q => ∃ i ≤ k + 1, ∃ t ∈ tree ∪ insert (r ++ [m]) r.inits.toFinset,
      q = periodic r (i * r.length) ++ t where
  old q hq h := ⟨0, Nat.zero_le _, q, by simp [(htree q).mpr ⟨hq, h⟩], by simp [periodic]⟩
  way q hq h := by
    rw [hD] at h
    exact ⟨0, Nat.zero_le _, q, by simp [(List.prefix_append_right_inj S).mp h], by simp [periodic]⟩
  config q hq h := by
    rw [hD, List.append_assoc] at h
    exact ⟨0, Nat.zero_le _, q, by simp [List.append_cancel_left h], by simp [periodic]⟩
  copy q q' hq' hq heq hdirs := by
    obtain ⟨i, hi, t, ht, rfl⟩ := hq
    rw [hD, List.append_assoc] at heq
    have hpos := List.length_pos_iff.mpr hr
    refine ⟨i + 1, ?_, t, ht, ?_⟩
    · by_contra hlt
      have hle : k < i * r.length :=
        Nat.lt_of_lt_of_le (by omega) (Nat.le_mul_of_pos_right i hpos)
      have hpre : periodic r k <+: periodic r (i * r.length) ++ t :=
        (periodic_isPrefix r hle.le).trans (List.prefix_append _ _)
      obtain ⟨-, hdir, hne⟩ := hdirs _ hpre
        (fun h => by
          have hlen := congrArg List.length h
          simp only [length_periodic, List.length_append] at hlen
          omega)
        (fun h => hk (by simpa using congrArg List.length h))
      exact hblocked ⟨hdir, hne⟩
    · rw [← List.append_cancel_left heq, ← List.append_assoc, append_periodic, Nat.succ_mul,
        Nat.add_comm]
  place q target _ _ hlink := by
    obtain ⟨hdir, hfile, hnone⟩ := hlinks q target hlink
    refine ⟨fun h => ?_, hdir, hfile⟩
    have hS := (hnone h).notBelow (hD ▸ List.prefix_append S r)
    exact hr (List.self_eq_append_right.mp (hS.trans hD))

end Possible

/-! ## The migration that returns -/

section Returns

variable {leads : Path → Path} {files₀ : Files} {source destination S D : Path}
  {tree : Finset Path}

theorem Setting.of_starts {Possible : Path → Prop} {room : Finset Path} (hwf : files₀.WellFormed)
    (hstarts : Starts leads files₀ source destination S D) (htree : Tree files₀ S tree)
    (hclosed : Closed leads files₀ S D (destination.getLastD "") Possible)
    (hroom : ∀ q, q ≠ [] → Possible q → q ∈ room) :
    Setting leads files₀ source destination S D Possible tree room where
  wf := hwf
  unique _ _ h := hstarts.unique h
  closed _ := hclosed
  room _ := hroom
  tree _ := htree

/-- Nothing is copied. -/
theorem Setting.of_not_starts (hwf : files₀.WellFormed)
    (h : ∀ S D, ¬Starts leads files₀ source destination S D) :
    Setting leads files₀ source destination [] [] (fun _ => False) tree ∅ where
  wf := hwf
  unique _ _ hstarts := absurd hstarts (h _ _)
  closed hstarts := absurd hstarts (h _ _)
  room hstarts := absurd hstarts (h _ _)
  tree hstarts := absurd hstarts (h _ _)

theorem Apart.not_feeds {m : String} (h : Apart files₀ S D) : ¬Feeds files₀ S D m := by
  rintro ⟨r, hr, hD, -⟩
  have hS := h.notBelow (hD ▸ List.prefix_append S r)
  exact hr (List.self_eq_append_right.mp (hS.trans hD))

theorem setting_apart (hwf : files₀.WellFormed)
    (hstarts : Starts leads files₀ source destination S D) (htree : Tree files₀ S tree)
    (hapart : Apart files₀ S D) (hlinks : NoLinks leads files₀ S D) :
    Setting leads files₀ source destination S D
      (fun q => files₀ (S ++ q) ≠ none ∨ S ++ q = D ++ [destination.getLastD ""]) tree
      (insert [destination.getLastD ""] tree) := by
  refine .of_starts hwf hstarts htree (closed_apart hapart hlinks hstarts.absent) ?_
  rintro q hq (hold | hnew)
  · exact Finset.mem_insert_of_mem ((htree q).mpr ⟨hq, hold⟩)
  · rw [(eq_of_entry hapart.notBelow hq hnew).2]
    exact Finset.mem_insert_self _ _

/-- Where the directories do not feed each other for ever, what can come to be is finite. -/
theorem exists_setting (hwf : files₀.WellFormed)
    (hstarts : Starts leads files₀ source destination S D) (htree : Tree files₀ S tree)
    (hfeeds : ¬Feeds files₀ S D (destination.getLastD "")) (hlinks : NoLinks leads files₀ S D) :
    ∃ Possible room, Setting leads files₀ source destination S D Possible tree room := by
  by_cases hapart : Apart files₀ S D
  · exact ⟨_, _, setting_apart hwf hstarts htree hapart hlinks⟩
  by_cases hS : S <+: D → S = D
  · refine ⟨_, insert [destination.getLastD ""] (tree.biUnion fun t => t.tails.toFinset),
      .of_starts hwf hstarts htree (closed_beside htree hS hlinks hapart) ?_⟩
    rintro q - (rfl | ⟨t, ht, hsuffix⟩)
    · exact Finset.mem_insert_self _ _
    · exact Finset.mem_insert_of_mem (Finset.mem_biUnion.mpr ⟨t, ht, by simpa using hsuffix⟩)
  · obtain ⟨⟨r, rfl⟩, hne⟩ := Classical.not_imp.mp hS
    have hr : r ≠ [] := fun h => hne (by rw [h, List.append_nil])
    obtain ⟨k, hblocked⟩ : ∃ k, ¬((files₀ (S ++ periodic r k) = none ∨
        files₀ (S ++ periodic r k) = some .dir) ∧
        S ++ periodic r k ≠ S ++ r ++ [destination.getLastD ""]) := by
      by_contra h
      exact hfeeds ⟨r, hr, rfl, fun k => not_not.mp fun hk => h ⟨k, hk⟩⟩
    have hk : k ≠ 0 := by
      rintro rfl
      refine hblocked ⟨.inr ?_, by simp [periodic]⟩
      simpa [periodic] using hwf.parent S _ hstarts.config.1
    refine ⟨_, (Finset.range (k + 2)).biUnion fun i =>
      (tree ∪ insert (r ++ [destination.getLastD ""]) r.inits.toFinset).image
        (periodic r (i * r.length) ++ ·),
      .of_starts hwf hstarts htree (closed_blocked htree hr rfl hk hblocked hlinks) ?_⟩
    rintro q - ⟨i, hi, t, ht, rfl⟩
    exact Finset.mem_biUnion.mpr
      ⟨i, Finset.mem_range.mpr (by omega), Finset.mem_image.mpr ⟨t, ht, rfl⟩⟩

end Returns

/-! ## The migration that does not return -/

section Descent

/-- The directories that are read one inside the other: each is there, with the one that is read
next, and nothing is in the way of those that are still to be made. -/
structure Descent (S r : Path) (c : String) (files : Files) (k : Nat) : Prop where
  above : ∀ p, p <+: S → files p = some .dir
  made : ∀ j < r.length + k, files (S ++ periodic r j) = some .dir
  free : ∀ j, files (S ++ periodic r j) = none ∨ files (S ++ periodic r j) = some .dir
  config : files (S ++ [c]) ≠ none ∧ files (S ++ [c]) ≠ some .dir

def Descending (S r : Path) (c : String) (s : State) : Prop :=
  s.former = S ∧ ∃ k outer,
    (s.phase = .calling (S ++ periodic r k) (S ++ periodic r (r.length + k)) outer ∧
      Descent S r c s.files k) ∨
    (s.phase = .looping
        (opening s.files (S ++ periodic r k) (S ++ periodic r (r.length + k))) outer ∧
      Descent S r c s.files (k + 1))

variable {fails : Bool} {leads : Path → Path} {files files₀ : Files} {S D r : Path}
  {source destination : Path} {c : String} {k : Nat} {s : State}

theorem Descent.open (h : Descent S r c files k) (j : Nat) :
    files.open_ (S ++ periodic r j) = true := by
  refine Files.open_iff.mpr fun p hp => ?_
  rcases List.prefix_or_prefix_of_prefix hp (List.prefix_append S (periodic r j)) with
    habove | ⟨t, rfl⟩
  · exact .inr (h.above p habove)
  · rw [eq_periodic_of_isPrefix ((List.prefix_append_right_inj S).mp hp)]
    exact h.free _

theorem Descent.makeDirs (h : Descent S r c files k) :
    Descent S r c (files.makeDirs (S ++ periodic r (r.length + k))) (k + 1) := by
  have hext := Files.extends_makeDirs files (S ++ periodic r (r.length + k))
  have hfree (j : Nat) := Files.makeDirs_free (h.free j) (S ++ periodic r (r.length + k))
  refine ⟨fun p hp => hext.eq_some (h.above p hp), fun j hj => ?_, hfree, ?_⟩
  · have hpre : S ++ periodic r j <+: S ++ periodic r (r.length + k) :=
      (List.prefix_append_right_inj S).mpr (periodic_isPrefix r (by omega))
    exact (hfree j).resolve_left (Files.makeDirs_of_prefix hpre)
  · rw [hext _ h.config.1]
    exact h.config

/-- There is always a next directory. -/
theorem Descending.step (hr : r ≠ []) (h : Descending S r (source.getLastD "") s) :
    ∃ s', Step fails leads source destination s s' ∧
      Descending S r (source.getLastD "") s' := by
  have hpos := List.length_pos_iff.mpr hr
  obtain ⟨hformer, k, outer, ⟨hphase, hdescent⟩ | ⟨hphase, hdescent⟩⟩ := h
  · have hland : landing leads s.files (S ++ periodic r (r.length + k)) =
        some (S ++ periodic r (r.length + k)) := by
      rw [landing_of_not_link, if_pos (hdescent.open _)]
      intro target hlink
      rcases hdescent.free (r.length + k) with hnone | hdir
      · rw [hnone] at hlink
        cases hlink
      · rw [hdir] at hlink
        cases hlink
    exact ⟨_, .call hphase hland (hdescent.made k (by omega)),
      hformer, k, outer, .inr ⟨rfl, hdescent.makeDirs⟩⟩
  · generalize hframe : opening s.files (S ++ periodic r k) (S ++ periodic r (r.length + k)) = frame
      at hphase
    have hlevel (j : Nat) (hj : j % r.length = k % r.length) :
        S ++ periodic r j ++ [r.getD (k % r.length) default] = S ++ periodic r (j + 1) := by
      rw [List.append_assoc, periodic_succ, hj]
    have hhere : frame.source ++ [r.getD (k % r.length) default] = S ++ periodic r (k + 1) := by
      rw [← hframe]
      exact hlevel k rfl
    have hthere : frame.destination ++ [r.getD (k % r.length) default] =
        S ++ periodic r (r.length + (k + 1)) := by
      rw [← hframe]
      exact hlevel _ (Nat.add_mod_left _ _)
    have hdir : s.files (S ++ periodic r (k + 1)) = some .dir := hdescent.made (k + 1) (by omega)
    have hnext : frame.Next s.files (r.getD (k % r.length) default) := by
      refine ⟨?_, by rw [hhere]; exact Files.ne_none_of_eq hdir⟩
      rw [← hframe]
      exact List.not_mem_nil
    have hskip : S ++ periodic r (k + 1) ≠ s.former ++ [source.getLastD ""] := by
      intro heq
      rw [heq, hformer] at hdir
      exact hdescent.config.2 hdir
    refine ⟨_, .turn hphase hnext, ?_⟩
    simp only [State.turn, State.copyEntry, State.enter, hhere, hthere, if_neg hskip, hdir]
    exact ⟨hformer, k + 1, _, .inl ⟨rfl, hdescent⟩⟩

/-- The descent begins when the new configuration is there. -/
theorem Descent.begin {m : String} (hwf : files₀.WellFormed)
    (hconfig : files₀ (S ++ [c]) ≠ none ∧ files₀ (S ++ [c]) ≠ some .dir)
    (hfree : ∀ k, (files₀ (S ++ periodic r k) = none ∨ files₀ (S ++ periodic r k) = some .dir) ∧
      S ++ periodic r k ≠ S ++ r ++ [m]) (hm : files₀ (S ++ r ++ [m]) = none)
    (contents : List UInt8) :
    Descent S r c ((files₀.makeDirs (S ++ r)).set (S ++ r ++ [m]) (some (.file contents))) 0 := by
  have hmade : files₀.makeDirs (S ++ r) (S ++ r ++ [m]) = none := by
    rw [Files.makeDirs_below]
    exact hm
  have hext := (Files.extends_makeDirs files₀ (S ++ r)).trans
    (Files.extends_set hmade (some (Node.file contents)))
  have hlevel (j : Nat) : (files₀.makeDirs (S ++ r)).set (S ++ r ++ [m]) (some (.file contents))
      (S ++ periodic r j) = files₀.makeDirs (S ++ r) (S ++ periodic r j) :=
    Files.set_other _ _ (hfree j).2
  have hdirs (j : Nat) := Files.makeDirs_free (hfree j).1 (S ++ r)
  refine ⟨fun p hp => ?_, fun j hj => ?_, fun j => ?_, ?_⟩
  · have hdir : files₀ p = some .dir := by
      refine hwf.above (hp.trans (List.prefix_append S [c])) (fun h => ?_) hconfig.1
      have hlen := hp.length_le
      rw [h, List.length_append, List.length_singleton] at hlen
      omega
    exact hext.eq_some hdir
  · have hpre : S ++ periodic r j <+: S ++ r := by
      have h := (List.prefix_append_right_inj S).mpr (periodic_isPrefix r (Nat.le_of_lt hj))
      rwa [Nat.add_zero, periodic_length] at h
    rw [hlevel]
    exact (hdirs j).resolve_left (Files.makeDirs_of_prefix hpre)
  · rw [hlevel]
    exact hdirs j
  · rw [hext _ hconfig.1]
    exact hconfig

/-- A name for the temporary file. -/
theorem exists_free {tree : Finset Path} (htree : Tree files₀ S tree) (m : String) :
    ∃ name, name ≠ m ∧ files₀ (S ++ r ++ [name]) = none := by
  obtain ⟨name, hname⟩ :=
    Infinite.exists_notMem_finset (insert m (tree.image fun q => q.getLastD ""))
  rw [Finset.mem_insert, not_or] at hname
  refine ⟨name, hname.1, by_contra fun h => hname.2 (Finset.mem_image.mpr ⟨r ++ [name], ?_, ?_⟩)⟩
  · rw [List.append_assoc] at h
    exact (htree _).mpr ⟨by simp, h⟩
  · simp

/-- Copying into the directory that is being read has no end. -/
theorem Starts.endless {tree : Finset Path} (hwf : files₀.WellFormed)
    (hstarts : Starts leads files₀ source destination S D) (htree : Tree files₀ S tree)
    (hfeeds : Feeds files₀ S D (destination.getLastD "")) :
    Endless (Step fails leads source destination) (start files₀) := by
  obtain ⟨r, hr, rfl, hfree⟩ := hfeeds
  obtain ⟨text, htext⟩ := hstarts.former
  obtain ⟨name, hname, hnone⟩ := exists_free htree (destination.getLastD "") (r := r)
  have habsent : pathExists leads files₀ destination = false := by
    rw [pathExists, hstarts.parent, Option.any_some, entryExists_of_none hstarts.absent]
    simp [(formerText_some htext).2.1]
  have hmade (x : String) (hx : files₀ (S ++ r ++ [x]) = none) :
      files₀.makeDirs (S ++ r) (S ++ r ++ [x]) = none := by
    rw [Files.makeDirs_below]
    exact hx
  have hdestination := hmade _ hstarts.absent
  have htemporary := hmade name hnone
  refine .cons (.absent rfl habsent) (.cons (.read rfl htext) (.cons (.parent rfl hstarts.parent
    hstarts.way) (.cons (.temporary rfl ?_ htemporary) (.cons (.persist rfl ?_) ?_))))
  · exact entryExists_of_none hdestination
  · have hne : S ++ r ++ [destination.getLastD ""] ≠ S ++ r ++ [name] := by simpa using hname.symm
    exact (Files.set_other _ _ hne).trans hdestination
  · refine .of_invariant (I := Descending S r (source.getLastD "")) ?_ fun s => Descending.step hr
    refine ⟨rfl, 0, [], .inl ⟨?_, ?_⟩⟩
    · rw [Nat.add_zero, periodic_length]
      simp [State.enter, State.journal, State.create, State.remove, State.makeDirs, periodic]
    · have hdescent := Descent.begin hwf hstarts.config hfree hstarts.absent
        (utf8 (migratedText source.dropLast destination.dropLast text))
      rw [← Files.set_set_none htemporary] at hdescent
      exact hdescent

end Descent

/-! ## Termination -/

section Termination

/-- Every run has returned after so many steps, and until then it goes on. -/
def Terminates (fails : Bool) (leads : Path → Path) (files : Files) (source destination : Path) :
    Prop :=
  ∃ N, ∀ n s, Steps (Step fails leads source destination) (start files) n s →
    n ≤ N ∧ ((∃ ok, s.phase = .returned ok) ∨ ∃ s', Step fails leads source destination s s')

theorem Setting.terminates {fails : Bool} {leads : Path → Path} {files₀ : Files}
    {source destination S D : Path} {Possible : Path → Prop} {tree room : Finset Path}
    (hset : Setting leads files₀ source destination S D Possible tree room) :
    Terminates fails leads files₀ source destination := by
  refine ⟨4 * room.card + 9, fun n s hsteps => ?_⟩
  obtain ⟨hle, -, hprogress⟩ := run_bounded hset hsteps
  exact ⟨hle, hprogress⟩

theorem not_terminates_of_endless {fails : Bool} {leads : Path → Path} {files : Files}
    {source destination : Path}
    (h : Endless (Step fails leads source destination) (start files)) :
    ¬Terminates fails leads files source destination := by
  rintro ⟨N, hN⟩
  obtain ⟨s, hs⟩ := h.steps (N + 1)
  have hle := (hN _ s hs).1
  omega

/-! ### One configuration alone -/

/-- The former configuration `/s/c`, alone in its directory. -/
def alone : Files := fun p =>
  if p = [] ∨ p = ["s"] then some .dir else if p = ["s", "c"] then some (.file (utf8 "")) else none

theorem tree_alone : Tree alone ["s"] {["c"]} := by
  intro q
  rw [Finset.mem_singleton]
  constructor
  · rintro rfl
    exact ⟨List.cons_ne_nil _ _, Option.some_ne_none _⟩
  · rintro ⟨hq, hfile⟩
    by_contra hne
    exact hfile (by simp [alone, hq, hne])

theorem alone_no_link (p : Path) (target : Target) : alone p ≠ some (.symlink target) := by
  unfold alone
  split_ifs <;> simp

theorem alone_wellFormed : alone.WellFormed where
  root := rfl
  parent path name h := by
    unfold alone at h
    have hcut (above : Path) {x : String} (heq : path ++ [name] = above ++ [x]) : path = above :=
      (List.append_inj' heq rfl).1
    split_ifs at h with hdir hfile
    · rcases hdir with hnil | hs
      · simp at hnil
      · rw [hcut [] hs]
        rfl
    · rw [hcut ["s"] hfile]
      rfl
    · exact absurd rfl h

theorem formerText_alone (leads : Path → Path) {destination : Path} (h : destination ≠ []) :
    formerText leads alone ["s", "c"] destination = some (["s"], "") := by
  have hresolve : resolve leads alone ["s"] = some ["s"] := rfl
  have hconfig : contentsAt leads alone ["s", "c"] = some (utf8 "") := rfl
  simp [formerText, h, hresolve, hconfig, fromUtf8_utf8]

theorem starts_alone {leads : Path → Path} (parent : Path) {S D : Path} {m : String}
    (hresolve : resolve leads alone parent = some parent)
    (h : Starts leads alone ["s", "c"] (parent ++ [m]) S D) : S = ["s"] ∧ D = parent := by
  obtain ⟨text, htext⟩ := h.former
  rw [formerText_alone leads (by simp)] at htext
  cases htext
  have hparent := h.parent
  rw [List.dropLast_concat, hresolve] at hparent
  exact ⟨rfl, (Option.some.inj hparent).symm⟩

/-! ### When a migration returns -/

/-- The new directory `/s/n` is inside the former one and is not there yet. -/
theorem feeds_alone : Feeds alone ["s"] ["s", "n"] "m" := by
  refine ⟨["n"], by simp, rfl, fun k => ?_⟩
  cases k with
  | zero => exact ⟨.inr rfl, by decide⟩
  | succ k =>
    rw [Nat.add_comm, show 1 + k = ["n"].length + k from rfl, ← append_periodic]
    refine ⟨.inl (by simp [alone]), ?_⟩
    intro h
    have hlen := congrArg List.length h
    simp at hlen
    subst hlen
    revert h
    decide

/-- The former directory `/d/r` is inside the new one, and there are three files in `/d/r/r`. -/
def echoing : Files := fun p =>
  if p ∈ [[], ["d"], ["d", "r"], ["d", "r", "r"]] then some .dir
  else if p ∈ [["d", "r", "c"], ["d", "r", "r", "f"], ["d", "r", "r", "g"], ["d", "r", "r", "h"]]
  then some (.file (utf8 "")) else none

def echoingTree : Finset Path := {["c"], ["r"], ["r", "f"], ["r", "g"], ["r", "h"]}

theorem tree_echoing : Tree echoing ["d", "r"] echoingTree := by
  intro q
  simp only [echoingTree, Finset.mem_insert, Finset.mem_singleton]
  constructor
  · intro hq
    rcases hq with rfl | rfl | rfl | rfl | rfl <;>
      exact ⟨List.cons_ne_nil _ _, Option.some_ne_none _⟩
  · rintro ⟨hq, hfile⟩
    by_contra hne
    simp only [not_or] at hne
    exact hfile (by simp [echoing, hq, hne])

theorem formerText_echoing :
    formerText id echoing ["d", "r", "c"] ["d", "m"] = some (["d", "r"], "") := by
  have hresolve : resolve id echoing ["d", "r"] = some ["d", "r"] := rfl
  have hconfig : contentsAt id echoing ["d", "r", "c"] = some (utf8 "") := rfl
  simp [formerText, hresolve, hconfig, fromUtf8_utf8]

/-- The files of `/d/r/r` are copied to `/d/r` while this is being read, and then once more. -/
theorem echo_exceeds : Tree echoing ["d", "r"] echoingTree ∧ ∃ n s,
    Steps (Step false id ["d", "r", "c"] ["d", "m"]) (start echoing) n s ∧
      echoingTree.card + ["d", "m"].length < s.created.length := by
  have hread : Steps (Step false id ["d", "r", "c"] ["d", "m"]) (start echoing) 1 _ :=
    .step .start (.absent rfl rfl)
  have hmake := hread.step (.read rfl formerText_echoing)
  have hresolve : resolve id echoing ["d"] = some ["d"] := rfl
  have hparent := hmake.step (.parent rfl hresolve rfl)
  have htemporary := hparent.step (@Step.temporary _ _ _ _ _ _ _ "t" rfl rfl rfl)
  have hpersist := htemporary.step (.persist rfl rfl)
  have houter := hpersist.step (.call rfl rfl rfl)
  have hdir := houter.step
    (@Step.turn _ _ _ _ _ _ _ "r" rfl ⟨List.not_mem_nil, Option.some_ne_none _⟩)
  have hinner := hdir.step (.call rfl rfl rfl)
  have hf := hinner.step (@Step.turn _ _ _ _ _ _ _ "f" rfl ⟨by decide, Option.some_ne_none _⟩)
  have hg := hf.step (@Step.turn _ _ _ _ _ _ _ "g" rfl ⟨by decide, Option.some_ne_none _⟩)
  have hh := hg.step (@Step.turn _ _ _ _ _ _ _ "h" rfl ⟨by decide, Option.some_ne_none _⟩)
  have hopened (name : String) (contents : List UInt8)
      (hname : ((((echoing.makeDirs ["d"]).set ["d", "t"] (some (.file contents))).set ["d", "t"]
        none).set ["d", "m"] (some (.file contents)) |>.makeDirs ["d"] |>.makeDirs ["d", "r"])
          ["d", "r", "r", name] ≠ none) : name ∈ ["h", "g", "f"] := by
    by_contra hne
    simp only [List.mem_cons, List.not_mem_nil, or_false, not_or] at hne
    exact hname (by simp [Files.makeDirs, Files.set, echoing, hne])
  have hend := hh.step (.finish rfl fun name hname =>
    hopened name (utf8 (migratedText ["d", "r"] ["d"] "")) hname)
  have hf' := hend.step (@Step.turn _ _ _ _ _ _ _ "f" rfl ⟨by decide, Option.some_ne_none _⟩)
  have hg' := hf'.step (@Step.turn _ _ _ _ _ _ _ "g" rfl ⟨by decide, Option.some_ne_none _⟩)
  have hh' := hg'.step (@Step.turn _ _ _ _ _ _ _ "h" rfl ⟨by decide, Option.some_ne_none _⟩)
  exact ⟨tree_echoing, _, _, hh', by decide⟩

end Termination

end Walk
end Setup
end Client
end Montray
