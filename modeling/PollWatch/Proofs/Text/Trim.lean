import Mathlib.Data.List.DropRight
import PollWatch.Text.Blank

/-!
# White space round a text

Trimming takes white space off both ends, all that there is and nothing else:

> `trim_eq_iff`: a text that holds no white space is left of exactly the texts that are this text
> with white space round it.
-/

namespace PollWatch.Text

/-- A text is another one, the core, with any amount of white space before it and behind it. -/
def Padded (core cs : List Char) : Prop :=
  ∃ before behind, cs = before ++ core ++ behind ∧
    (∀ c ∈ before, isBlank c) ∧ ∀ c ∈ behind, isBlank c

theorem trim_eq_rdropWhile (cs : List Char) :
    trim cs = (cs.dropWhile isBlank).rdropWhile isBlank := rfl

/-- What trimming takes off is white space. -/
theorem padded_trim (cs : List Char) : Padded (trim cs) cs := by
  refine ⟨cs.takeWhile isBlank, (cs.dropWhile isBlank).rtakeWhile isBlank, ?_,
    fun c => List.mem_takeWhile_imp, fun c => List.mem_rtakeWhile_imp⟩
  rw [List.append_assoc, trim_eq_rdropWhile, List.rdropWhile_append_rtakeWhile,
    List.takeWhile_append_dropWhile]

variable {core cs : List Char}

/-- White space behind a text is dropped from its end. -/
theorem rdropWhile_append_blank {behind : List Char} (h : ∀ c ∈ behind, isBlank c) :
    (cs ++ behind).rdropWhile isBlank = cs.rdropWhile isBlank := by
  unfold List.rdropWhile
  rw [List.reverse_append,
    List.dropWhile_append_of_pos fun c hc => h c (List.mem_reverse.mp hc)]

/-- Where no white space is, none is dropped. -/
theorem trim_eq_self (h : ∀ c ∈ cs, ¬ isBlank c) : trim cs = cs := by
  have hfront : cs.dropWhile isBlank = cs :=
    List.dropWhile_eq_self_iff.mpr fun _ => h _ (List.getElem_mem _)
  rw [trim_eq_rdropWhile, hfront]
  exact List.rdropWhile_eq_self_iff.mpr fun _ => h _ (List.getLast_mem _)

/-- Trimming takes off all the white space round a text that holds none. -/
theorem trim_eq_of_padded (hcore : ∀ c ∈ core, ¬ isBlank c) (h : Padded core cs) :
    trim cs = core := by
  obtain ⟨before, behind, rfl, hbefore, hbehind⟩ := h
  rw [trim_eq_rdropWhile, List.append_assoc, List.dropWhile_append_of_pos hbefore]
  cases core with
  | nil =>
    -- then all that is left is white space
    rw [List.nil_append, List.dropWhile_eq_nil_iff.mpr hbehind, List.rdropWhile_nil]
  | cons c core =>
    rw [List.cons_append, List.dropWhile_cons_of_neg (hcore c (List.mem_cons_self ..)),
      ← List.cons_append, rdropWhile_append_blank hbehind]
    have hself := trim_eq_self hcore
    rwa [trim_eq_rdropWhile,
      List.dropWhile_cons_of_neg (hcore c (List.mem_cons_self ..))] at hself

/-- **A text that holds no white space is left exactly where white space is all that stands round
it.** -/
theorem trim_eq_iff (hcore : ∀ c ∈ core, ¬ isBlank c) : trim cs = core ↔ Padded core cs :=
  ⟨fun h => h ▸ padded_trim cs, trim_eq_of_padded hcore⟩

end PollWatch.Text
