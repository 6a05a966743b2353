import Mathlib.Data.List.Infix
import Mathlib.Data.List.Count
import Mathlib.Tactic.Common
import Std.Data.String.ToInt

/-!
# Texts joined by a separator

A text `a ++ sep ++ b` determines its two parts as soon as the number of separators in the first
part is known.  Number texts contain no separator other than a digit or a minus sign.
-/

namespace Separated

variable {α : Type*} [DecidableEq α]

/-- Two texts of the form `front ++ sep :: back` whose fronts contain equally many separators have
the same parts. -/
theorem append_cons_inj_of_count {sep : α} {a b c d : List α} (hcount : a.count sep = c.count sep)
    (h : a ++ sep :: b = c ++ sep :: d) : a = c ∧ b = d := by
  have key : ∀ {a b c d : List α}, a.count sep = c.count sep → ∀ l, c = a ++ l →
      sep :: b = l ++ sep :: d → a = c ∧ b = d := by
    rintro a b c d hcount (_ | ⟨x, l⟩) rfl hl
    · exact ⟨(List.append_nil a).symm, (List.cons.inj hl).2⟩
    · obtain ⟨rfl, -⟩ := List.cons.inj hl
      simp at hcount
  rcases List.append_eq_append_iff.1 h with ⟨l, hc, hb⟩ | ⟨l, ha, hd⟩
  · exact key hcount l hc hb
  · obtain ⟨rfl, rfl⟩ := key hcount.symm l ha hd
    exact ⟨rfl, rfl⟩

omit [DecidableEq α] in
/-- A text without the separator stands at the beginning of what comes before it, or not at all. -/
theorem prefix_append_cons_iff {sep : α} {front text l : List α} (hsep : sep ∉ l) :
    l <+: front ++ sep :: text ↔ l <+: front := by
  constructor
  · rintro ⟨rest, hrest⟩
    rcases List.append_eq_append_iff.1 hrest with ⟨between, hfront, -⟩ | ⟨between, hl, hcons⟩
    · exact ⟨between, hfront.symm⟩
    · cases between with
      | nil => exact ⟨[], by rw [hl]; simp⟩
      | cons d between =>
        obtain ⟨rfl, -⟩ := List.cons.inj hcons
        refine absurd ?_ hsep
        rw [hl]
        exact List.mem_append_right front List.mem_cons_self
  · exact fun h => h.trans (List.prefix_append front _)

/-- A text that begins with the separator stands in one with a single separator only behind it. -/
theorem cons_infix_append_cons_iff {sep : α} {front back l : List α} (hfront : sep ∉ front)
    (hback : sep ∉ back) : sep :: l <:+: front ++ sep :: back ↔ l <+: back := by
  constructor
  · rintro ⟨before, after, h⟩
    have hcut : before ++ sep :: (l ++ after) = front ++ sep :: back := by
      rw [← h, List.append_assoc, List.cons_append]
    have hcount := congrArg (List.count sep) hcut
    rw [List.count_append, List.count_append, List.count_cons_self, List.count_cons_self,
      List.count_eq_zero.2 hfront, List.count_eq_zero.2 hback] at hcount
    have hbefore : before.count sep = front.count sep := by
      rw [List.count_eq_zero.2 hfront]
      omega
    obtain ⟨-, hrest⟩ := append_cons_inj_of_count hbefore hcut
    exact ⟨after, hrest⟩
  · rintro ⟨after, rfl⟩
    exact ⟨front, after, by rw [List.append_assoc, List.cons_append]⟩

/-! ## Number texts -/

theorem count_toList_repr_eq_zero (n : ℕ) {c : Char} (hc : c.isDigit = false) :
    n.repr.toList.count c = 0 := by
  rw [List.count_eq_zero, Nat.repr, String.toList_ofList]
  intro h
  have := Nat.isDigit_of_mem_toDigits (by decide) (by decide) h
  rw [hc] at this
  exact Bool.false_ne_true this

theorem count_toList_intRepr_eq_zero (z : ℤ) {c : Char} (hc : c.isDigit = false) (hm : c ≠ '-') :
    z.repr.toList.count c = 0 := by
  cases z with
  | ofNat n => exact count_toList_repr_eq_zero n hc
  | negSucc n =>
    show ("-" ++ n.succ.repr).toList.count c = 0
    rw [String.toList_append, List.count_append, count_toList_repr_eq_zero n.succ hc]
    show ['-'].count c + 0 = 0
    rw [List.count_eq_zero_of_not_mem (by simpa using hm)]

end Separated
