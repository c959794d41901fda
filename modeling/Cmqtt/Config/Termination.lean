import Cmqtt.Config.Reading

/-!
# Whether a lookup ends

A stream ends in the end of the file, where `feof` becomes true, or in a read
error, where it does not: `fgetc` returns `EOF` for ever, as on a directory that
was opened. At the end of its body, the loop of `GetInitKey` breaks on `EOF`.
The lines that are skipped (`skips`) do not get there: they `continue`, and the
loop relies on `feof`.

So on a stream that stops in a read error, the loop never ends if the search
gets to the line it stops in and skips that (`stalls`), which then also holds
of the empty lines read from there on.

What the loop does after it has left one of its buffers is not known: such a run
is not counted as one that ends (`Terminates`). `terminates_iff` says that these
are the only ways not to end: the buffers are left (`Fits`), or the search
stalls.
-/

namespace Cmqtt.GetInitKey

variable {title key : CString} {bad flag flag' : Bool} {l : List UInt8} {ls ls' : List (List UInt8)}

/-- The loop ends with a value after finitely many iterations, each of which reads
    a byte. -/
def Terminates (title key : CString) (f : File) : Prop :=
  ∃ n value, run title key n (start f) = some (.ok value)

/-- The search stays within `tmpLine` and `tmpstr`: the lines it gets to fit, and
    so does the title, unless no line is compared with it. -/
structure Fits (title key : CString) (flag : Bool) (ls : List (List UInt8)) : Prop where
  tmpLine : ∀ l ∈ reached title key flag ls, l.length ≤ 1023
  tmpstr : TitleFits title ∨ ∀ l ∈ reached title key flag ls, isSkipped (cut l)

/-- The search passes all lines but the last, and skips that. -/
def stalls (title key : CString) : Bool → List (List UInt8) → Bool
  | _, [] => false
  | flag, [l] => l.length < 1024 && skips key flag (cut l)
  | flag, l :: l' :: ls => l.length < 1024 &&
    (pass title key flag (cut l)).any fun flag => stalls title key flag (l' :: ls)

theorem stalls_cons (hls : ls ≠ []) : stalls title key flag (l :: ls) = (l.length < 1024 &&
    (pass title key flag (cut l)).any fun flag => stalls title key flag ls) := by
  obtain ⟨l', ls, rfl⟩ := List.exists_cons_of_ne_nil hls
  rfl

theorem mem_reached_cons : l ∈ reached title key flag (l :: ls) := by
  rw [reached]
  exact List.mem_cons_self

theorem not_fits_long (hl : 1024 ≤ l.length) : ¬Fits title key flag (l :: ls) := fun h =>
  absurd (h.tmpLine l mem_reached_cons) (by omega)

theorem not_fits_title (hs : isSkipped (cut l) = false) (ht : ¬TitleFits title) :
    ¬Fits title key flag (l :: ls) := fun h => by
  have hskip := h.tmpstr.resolve_left ht l mem_reached_cons
  rw [hs] at hskip
  cases hskip

/-- A line that is passed leaves the lines after it. -/
theorem fits_cons (hl : l.length ≤ 1023) (hpass : pass title key flag (cut l) = some flag')
    (ht : TitleFits title ∨ isSkipped (cut l)) :
    Fits title key flag (l :: ls) ↔ Fits title key flag' ls := by
  have hreached : reached title key flag (l :: ls) = l :: reached title key flag' ls := by
    rw [reached, if_neg (by omega), hpass]
  constructor
  · intro h
    obtain ⟨hline, hstr⟩ := h
    rw [hreached] at hline hstr
    exact ⟨fun l' hl' => hline l' (List.mem_cons_of_mem _ hl'),
      hstr.imp_right fun h l' hl' => h l' (List.mem_cons_of_mem _ hl')⟩
  · intro h
    refine ⟨?_, ?_⟩
    · rw [hreached]
      exact List.forall_mem_cons.2 ⟨hl, h.tmpLine⟩
    · rw [hreached]
      rcases ht with ht | hs
      · exact .inl ht
      · exact h.tmpstr.imp_right fun h => List.forall_mem_cons.2 ⟨hs, h⟩

/-- A line at which the search ends is the last one it gets to. -/
theorem fits_stop (hl : l.length ≤ 1023) (hpass : pass title key flag (cut l) = none)
    (ht : TitleFits title) : Fits title key flag (l :: ls) := by
  refine ⟨?_, .inl ht⟩
  rw [reached, if_neg (by omega), hpass]
  simpa using hl

theorem fits_nil : Fits title key flag [] := by
  refine ⟨fun l hl => ?_, .inr fun l hl => ?_⟩ <;> cases hl

/-- A line is skipped at sight, or in the section. -/
theorem fits_or_isSkipped (hflag : flag → TitleFits title) (hskip : skips key flag l) :
    TitleFits title ∨ isSkipped l := by
  simp only [skips, Bool.or_eq_true, Bool.and_eq_true] at hskip
  rcases hskip with hs | ⟨⟨⟨hf, -⟩, -⟩, -⟩
  · exact .inr hs
  · exact .inl (hflag hf)

/-! ## Iterations -/

theorem run_of_step {s s' : Loop} (h : step title key s = .ok (.inl s')) (n : ℕ) :
    run title key (n + 1) s = run title key n s' := by
  rw [run, h]

/-- A loop that goes on to one that never ends does not end. -/
theorem run_eq_none_of_step {s s' : Loop} (h : step title key s = .ok (.inl s'))
    (hs' : ∀ n, run title key n s' = none) (n : ℕ) : run title key n s = none := by
  cases n with
  | zero => rfl
  | succ n => rw [run_of_step h, hs']

/-- How the loop ends does not depend on the iterations it is run for. -/
theorem run_unique {s : Loop} {n m : ℕ} {x y : Except Stop CString}
    (hn : run title key n s = some x) (hm : run title key m s = some y) : x = y := by
  induction n generalizing m s with
  | zero => cases hn
  | succ n ih =>
    rcases m with _ | m
    · cases hm
    · rw [run] at hn hm
      rcases hstep : step title key s with e | (s' | value) <;> rw [hstep] at hn hm
      · exact (Option.some.inj hn).symm.trans (Option.some.inj hm)
      · exact ih hn hm
      · exact (Option.some.inj hn).symm.trans (Option.some.inj hm)

/-- At the read error, the loop reads an empty line again and again. -/
theorem run_reading_nil (n : ℕ) : run title key n (reading true [] [] flag) = none := by
  have hstep : step title key (reading true [] [] flag) = .ok (.inl (reading true [] [] flag)) :=
    step_eof (by decide)
  induction n with
  | zero => rfl
  | succ n ih => rw [run_of_step hstep, ih]

/-- What the loop comes to in `n` iterations, with the lines `ls` still to be read
    of a stream that ends in a read error or not. -/
inductive Outcome (title key : CString) (bad flag : Bool) (ls : List (List UInt8)) (n : ℕ)
    (s : Loop) : Prop
  | returned (value : CString) (hrun : run title key n s = some (.ok value))
      (hfits : Fits title key flag ls) (hstalls : ¬(bad ∧ stalls title key flag ls))
  | overflow (b : Buffer) (hrun : run title key n s = some (.error (.overflow b)))
      (hfits : ¬Fits title key flag ls)
  | never (hrun : ∀ n, run title key n s = none) (hfits : Fits title key flag ls)
      (hstalls : bad ∧ stalls title key flag ls)

/-- An iteration after which the loop goes on. -/
theorem Outcome.of_step {n : ℕ} {s s' : Loop} (hstep : step title key s = .ok (.inl s'))
    (hfits : Fits title key flag ls ↔ Fits title key flag' ls')
    (hstalls : stalls title key flag ls = stalls title key flag' ls')
    (h : Outcome title key bad flag' ls' n s') : Outcome title key bad flag ls (n + 1) s := by
  cases h with
  | returned value hrun hf hs =>
    exact .returned value (by rwa [run_of_step hstep]) (hfits.2 hf) (hstalls ▸ hs)
  | overflow b hrun hf => exact .overflow b (by rwa [run_of_step hstep]) (mt hfits.1 hf)
  | never hrun hf hs =>
    exact .never (run_eq_none_of_step hstep hrun) (hfits.2 hf) (hstalls ▸ hs)

theorem outcome_long {bs acc : List UInt8} {n : ℕ} (hacc : 1024 ≤ acc.length)
    (hl : 1024 ≤ l.length) :
    Outcome title key bad flag (l :: ls) (n + 1) (reading bad bs acc flag) :=
  .overflow .tmpLine (by rw [run, step_long hacc]) (not_fits_long hl)

/-- The last line, at the end of the stream. -/
theorem outcome_eof {acc : List UInt8} (hflag : flag → TitleFits title) :
    Outcome title key bad flag [acc] 2 (reading bad [] acc flag) := by
  rcases Nat.lt_or_ge acc.length 1024 with hacc | hacc
  · obtain ⟨hp, hskip, hpass⟩ | ⟨flag', hp, hskip, hpass, ht⟩ | ⟨hp, hskip, hpass, ht⟩ |
      ⟨hp, hs, -, ht⟩ := @processLine_cases title key flag acc (by omega) hflag
    · have hstep : step title key (reading bad [] acc flag) =
          .ok (.inl ⟨⟨[], bad, !bad⟩, [], flag⟩) := by
        rw [step_eof hacc, endLine, hp]
        rfl
      have hfits : Fits title key flag [acc] :=
        (fits_cons (by omega) hpass (fits_or_isSkipped hflag hskip)).2 fits_nil
      cases bad with
      | false =>
        refine .returned .empty ?_ hfits (by simp)
        rw [run_of_step hstep]
        exact run_feof
      | true =>
        exact .never (run_eq_none_of_step hstep run_reading_nil) hfits
          ⟨rfl, by simp [stalls, hacc, hskip]⟩
    · refine .returned .empty ?_ ((fits_cons (by omega) hpass (.inl ht)).2 fits_nil)
        (by simp [stalls, hskip])
      rw [run, step_eof hacc, endLine, hp]
      rfl
    · have hfits : Fits title key flag [acc] := fits_stop (by omega) hpass ht
      rcases hp with hp | ⟨value, hp⟩
      · refine .returned .empty ?_ hfits (by simp [stalls, hskip])
        rw [run, step_eof hacc, endLine, hp]
        rfl
      · refine .returned value ?_ hfits (by simp [stalls, hskip])
        rw [run, step_eof hacc, endLine, hp]
        rfl
    · refine .overflow .tmpstr ?_ (not_fits_title hs ht)
      rw [run, step_eof hacc, endLine, hp]
      rfl
  · exact outcome_long hacc hacc

/-- The loop over the lines still to be read: by induction on the bytes, with the
    beginning of a line in `tmpLine`. -/
theorem run_outcome (bs : List UInt8) : ∀ (acc : List UInt8) (flag : Bool),
    (flag → TitleFits title) →
    Outcome title key bad flag (pending acc bs) (bs.length + 2) (reading bad bs acc flag) := by
  induction bs with
  | nil =>
    intro acc flag hflag
    rw [pending_eof]
    exact outcome_eof hflag
  | cons b bs ih =>
    intro acc flag hflag
    rcases Nat.lt_or_ge acc.length 1024 with hacc | hacc
    · by_cases hb : b = newline
      · subst hb
        have hne : lines bs ≠ [] := List.splitOn_ne_nil newline bs
        have hstep := @step_newline title key bad bs acc flag hacc
        -- a line that is passed leaves the lines after it, in the section or not
        have hpassed : ∀ flag', pass title key flag (cut acc) = some flag' →
            (flag' → TitleFits title) → (TitleFits title ∨ isSkipped (cut acc)) →
            step title key (reading bad (newline :: bs) acc flag) =
              .ok (.inl (reading bad bs [] flag')) →
            Outcome title key bad flag (acc :: lines bs) (bs.length + 1 + 2)
              (reading bad (newline :: bs) acc flag) := by
          intro flag' hpass hflag' ht hstep'
          refine .of_step hstep' (fits_cons (by omega) hpass ht) ?_
            (pending_nil bs ▸ ih [] flag' hflag')
          rw [stalls_cons hne, hpass]
          simp [hacc]
        rw [pending_newline, List.length_cons]
        obtain ⟨hp, hskip, hpass⟩ | ⟨flag', hp, -, hpass, ht⟩ | ⟨hp, -, hpass, ht⟩ |
          ⟨hp, hs, -, ht⟩ := @processLine_cases title key flag acc (by omega) hflag
        · refine hpassed flag hpass hflag (fits_or_isSkipped hflag hskip) ?_
          rw [hstep, endLine, hp]
          rfl
        · refine hpassed flag' hpass (fun _ => ht) (.inl ht) ?_
          rw [hstep, endLine, hp]
          rfl
        · have hfits : Fits title key flag (acc :: lines bs) := fits_stop (by omega) hpass ht
          have hstalls : ¬(bad ∧ stalls title key flag (acc :: lines bs)) := by
            simp [stalls_cons hne, hpass]
          rcases hp with hp | ⟨value, hp⟩
          · refine .returned .empty ?_ hfits hstalls
            rw [run, hstep, endLine, hp]
            rfl
          · refine .returned value ?_ hfits hstalls
            rw [run, hstep, endLine, hp]
            rfl
        · refine .overflow .tmpstr ?_ (not_fits_title hs ht)
          rw [run, hstep, endLine, hp]
          rfl
      · rw [pending_byte hb]
        exact .of_step (step_byte hacc hb) .rfl rfl (ih (acc ++ [b]) flag hflag)
    · obtain ⟨l, ls, hp, hl⟩ := exists_pending acc (b :: bs)
      rw [hp]
      exact outcome_long hacc (hacc.trans hl)

/-! ## Whether the loop ends -/

theorem outcome (title key : CString) (f : File) :
    Outcome title key f.bad false (lines f.bytes) (f.bytes.length + 2) (start f) := by
  have h := @run_outcome title key f.bad f.bytes [] false (by simp)
  rwa [pending_nil] at h

/-- The iterations `getInitKey` runs the loop for are enough to end it, if it ends. -/
theorem terminates_iff_getInitKey (title key : CString) (f : File) :
    Terminates title key f ↔ ∃ value, getInitKey (some f) title key = .ok value := by
  rw [getInitKey]
  cases outcome title key f with
  | returned value hrun => exact iff_of_true ⟨_, value, hrun⟩ ⟨value, by rw [hrun]; rfl⟩
  | overflow b hrun =>
    refine iff_of_false ?_ (by simp [hrun])
    rintro ⟨n, value, hn⟩
    cases run_unique hrun hn
  | never hrun =>
    refine iff_of_false ?_ (by simp [hrun])
    rintro ⟨n, value, hn⟩
    cases (hrun n).symm.trans hn

/-- The loop ends exactly if the search stays within the buffers, and the stream
    does not stop in a read error in a line that the search gets to and skips. -/
theorem terminates_iff (title key : CString) (f : File) :
    Terminates title key f ↔ Fits title key false (lines f.bytes) ∧
      ¬(f.bad ∧ stalls title key false (lines f.bytes)) := by
  cases outcome title key f with
  | returned value hrun hfits hstalls => exact iff_of_true ⟨_, value, hrun⟩ ⟨hfits, hstalls⟩
  | overflow b hrun hfits =>
    refine iff_of_false ?_ fun h => hfits h.1
    rintro ⟨n, value, hn⟩
    cases run_unique hrun hn
  | never hrun _ hstalls =>
    refine iff_of_false ?_ fun h => h.2 hstalls
    rintro ⟨n, value, hn⟩
    cases (hrun n).symm.trans hn

/-- A directory: the stream stops in its first line, which is empty. -/
theorem not_terminates_directory : ¬∀ (title key : CString) (f : File), Terminates title key f := by
  intro h
  obtain ⟨n, value, hn⟩ := h (.lit "TOPIC") (.lit "NUM") ⟨[], true⟩
  cases (run_reading_nil n).symm.trans hn

end Cmqtt.GetInitKey
