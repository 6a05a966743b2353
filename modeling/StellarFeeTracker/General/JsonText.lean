import Mathlib.Data.List.Forall2

/-!
# Texts of JSON values

The compact text of a value: objects and arrays without spaces, and strings with the escapes that
they need.  The text of an object splits between any two of its members (`object_append`).

A reader knows where a string ends, and so where an object ends that is made of strings and of such
objects: the texts of two objects with the same names are the same only if their members are
(`object_append_inj`).
-/

namespace JsonText

/-- What stands for a character in a string. -/
def escape (c : Char) : List Char :=
  if c = '\x22' ∨ c = '\\' then ['\\', c]
  else if c = '\x08' then ['\\', 'b']
  else if c = '\t' then ['\\', 't']
  else if c = '\n' then ['\\', 'n']
  else if c = '\x0c' then ['\\', 'f']
  else if c = '\r' then ['\\', 'r']
  else if c.toNat < 32 then
    ['\\', 'u', '0', '0', (c.toNat / 16).digitChar, (c.toNat % 16).digitChar]
  else [c]

def string (text : List Char) : List Char := '\x22' :: text.flatMap escape ++ ['\x22']

def unsigned (n : ℕ) : List Char := (toString n).toList

/-- The texts with commas between them. -/
def joined : List (List Char) → List Char
  | [] => []
  | [text] => text
  | text :: texts => text ++ ',' :: joined texts

def array (elements : List (List Char)) : List Char := '[' :: joined elements ++ [']']

def member (field : String × List Char) : List Char := string field.1.toList ++ ':' :: field.2

def object (fields : List (String × List Char)) : List Char :=
  '\x7b' :: joined (fields.map member) ++ ['\x7d']

theorem joined_cons_cons (text next : List Char) (texts : List (List Char)) :
    joined (text :: next :: texts) = text ++ ',' :: joined (next :: texts) := rfl

theorem joined_append {front back : List (List Char)} (hfront : front ≠ []) (hback : back ≠ []) :
    joined (front ++ back) = joined front ++ ',' :: joined back := by
  induction front with
  | nil => exact absurd rfl hfront
  | cons text front ih =>
    cases front with
    | nil =>
      obtain ⟨next, rest, rfl⟩ := List.exists_cons_of_ne_nil hback
      rfl
    | cons next front =>
      rw [List.cons_append, List.cons_append, joined_cons_cons, joined_cons_cons,
        ← List.cons_append, ih (List.cons_ne_nil _ _), List.append_assoc, List.cons_append]

/-- The text of an object, cut before one of its members. -/
theorem object_append {front back : List (String × List Char)} (hfront : front ≠ [])
    (hback : back ≠ []) :
    object (front ++ back) =
      ('\x7b' :: joined (front.map member)) ++ (',' :: joined (back.map member) ++ ['\x7d']) := by
  rw [object, List.map_append, joined_append (by simpa using hfront) (by simpa using hback)]
  simp

/-! ## What can be read back -/

/-- The number of a hexadecimal digit. -/
def digitValue (digit : Char) : ℕ :=
  if digit.toNat < 58 then digit.toNat - 48 else digit.toNat - 87

/-- The character that an escape stands for, and what follows it. -/
def readEscape : List Char → Option (Char × List Char)
  | [] => none
  | c :: rest =>
    if c = 'u' then
      match rest with
      | _ :: _ :: high :: low :: rest =>
        some (Char.ofNat (16 * digitValue high + digitValue low), rest)
      | _ => none
    else if c = 'b' then some ('\x08', rest)
    else if c = 't' then some ('\t', rest)
    else if c = 'n' then some ('\n', rest)
    else if c = 'f' then some ('\x0c', rest)
    else if c = 'r' then some ('\r', rest)
    else some (c, rest)

/-- The first character of a string whose text goes on, and what follows it. -/
def readChar : List Char → Option (Char × List Char)
  | [] => none
  | c :: rest => if c = '\\' then readEscape rest else some (c, rest)

theorem digitValue_digitChar {d : ℕ} (h : d < 16) : digitValue d.digitChar = d := by
  have hall : ∀ d < 16, digitValue d.digitChar = d := by decide
  exact hall d h

theorem readChar_escape (c : Char) (rest : List Char) :
    readChar (escape c ++ rest) = some (c, rest) := by
  unfold escape
  split_ifs with hquoted hback htab hline hfeed hreturn hcontrol
  · rcases hquoted with rfl | rfl <;> rfl
  · rw [hback]
    rfl
  · rw [htab]
    rfl
  · rw [hline]
    rfl
  · rw [hfeed]
    rfl
  · rw [hreturn]
    rfl
  · have hhigh : digitValue (c.toNat / 16).digitChar = c.toNat / 16 :=
      digitValue_digitChar (by omega)
    have hlow : digitValue (c.toNat % 16).digitChar = c.toNat % 16 :=
      digitValue_digitChar (Nat.mod_lt _ (by decide))
    show some (Char.ofNat (16 * digitValue (c.toNat / 16).digitChar +
      digitValue (c.toNat % 16).digitChar), rest) = some (c, rest)
    rw [hhigh, hlow, Nat.div_add_mod, Char.ofNat_toNat]
  · have hplain : c ≠ '\\' := fun h => hquoted (.inr h)
    exact if_neg hplain

/-- A string does not end inside an escape. -/
theorem escape_append_ne (c : Char) (rest rest' : List Char) : escape c ++ rest ≠ '\x22' :: rest' := by
  intro h
  have hread := readChar_escape c rest
  rw [h] at hread
  obtain ⟨rfl, rfl⟩ : '\x22' = c ∧ rest' = rest := by simpa [readChar] using hread
  exact absurd (List.cons.inj h).1 (by decide)

theorem string_append_inj {text text' rest rest' : List Char}
    (h : string text ++ rest = string text' ++ rest') : text = text' ∧ rest = rest' := by
  have hbody : text.flatMap escape ++ '\x22' :: rest = text'.flatMap escape ++ '\x22' :: rest' := by
    simpa [string] using h
  clear h
  induction text generalizing text' with
  | nil =>
    cases text' with
    | nil => exact ⟨rfl, (List.cons.inj hbody).2⟩
    | cons c' text' =>
      rw [List.flatMap_cons, List.append_assoc] at hbody
      exact absurd hbody.symm (escape_append_ne _ _ _)
  | cons c text ih =>
    rw [List.flatMap_cons, List.append_assoc] at hbody
    cases text' with
    | nil => exact absurd hbody (escape_append_ne _ _ _)
    | cons c' text' =>
      rw [List.flatMap_cons, List.append_assoc] at hbody
      have hread := congrArg readChar hbody
      rw [readChar_escape, readChar_escape] at hread
      obtain ⟨rfl, hrest⟩ := Prod.mk.inj (Option.some.inj hread)
      obtain ⟨rfl, rfl⟩ := ih hrest
      exact ⟨rfl, rfl⟩

theorem string_inj {text text' : List Char} : string text = string text' ↔ text = text' :=
  ⟨fun h => (string_append_inj (congrArg (· ++ []) h)).1, congrArg string⟩

/-- Of two texts with anything behind them, a reader sees where the texts end. -/
def Delimited (text text' : List Char) : Prop :=
  ∀ rest rest', text ++ rest = text' ++ rest' → text = text' ∧ rest = rest'

theorem delimited_string (text text' : List Char) : Delimited (string text) (string text') := by
  intro rest rest' h
  obtain ⟨rfl, rfl⟩ := string_append_inj h
  exact ⟨rfl, rfl⟩

theorem joined_append_inj {texts texts' : List (List Char)}
    (htexts : List.Forall₂ Delimited texts texts') {rest rest' : List Char}
    (h : joined texts ++ rest = joined texts' ++ rest') : texts = texts' ∧ rest = rest' := by
  induction htexts with
  | nil => exact ⟨rfl, h⟩
  | @cons text text' texts texts' hfirst hothers ih =>
    cases hothers with
    | nil =>
      obtain ⟨rfl, rfl⟩ := hfirst _ _ h
      exact ⟨rfl, rfl⟩
    | @cons next next' others others' hnext hothers =>
      have h : text ++ ',' :: (joined (next :: others) ++ rest) =
          text' ++ ',' :: (joined (next' :: others') ++ rest') := by
        rw [joined_cons_cons, joined_cons_cons] at h
        simpa only [List.append_assoc, List.cons_append] using h
      obtain ⟨rfl, hrest⟩ := hfirst _ _ h
      obtain ⟨hsame, rfl⟩ := ih (List.cons.inj hrest).2
      exact ⟨congrArg _ hsame, rfl⟩

theorem delimited_member {field field' : String × List Char} (hname : field.1 = field'.1)
    (hvalue : Delimited field.2 field'.2) : Delimited (member field) (member field') := by
  intro rest rest' h
  unfold member at h ⊢
  rw [hname, List.append_assoc, List.append_assoc] at h
  obtain ⟨hsame, rfl⟩ := hvalue _ _ (List.cons.inj (List.append_cancel_left h)).2
  exact ⟨by rw [hname, hsame], rfl⟩

/-- The texts of two objects with the same names, and with values whose ends a reader sees. -/
theorem object_append_inj {fields fields' : List (String × List Char)}
    (hfields : List.Forall₂ (fun field field' => field.1 = field'.1 ∧ Delimited field.2 field'.2)
      fields fields') {rest rest' : List Char}
    (h : object fields ++ rest = object fields' ++ rest') : fields = fields' ∧ rest = rest' := by
  have hmembers : List.Forall₂ Delimited (fields.map member) (fields'.map member) := by
    rw [List.forall₂_map_left_iff, List.forall₂_map_right_iff]
    exact hfields.imp fun _ _ hfield => delimited_member hfield.1 hfield.2
  rw [object, object, List.append_assoc, List.append_assoc] at h
  obtain ⟨hsame, hrest⟩ := joined_append_inj hmembers (List.cons.inj h).2
  refine ⟨?_, (List.cons.inj hrest).2⟩
  clear h hrest hmembers
  induction hfields with
  | nil => rfl
  | @cons field field' fields fields' hfield hothers ih =>
    obtain ⟨hfirst, hsame⟩ := List.cons.inj hsame
    have hvalue : field.2 = field'.2 := by
      rw [member, member, hfield.1] at hfirst
      exact (List.cons.inj (List.append_cancel_left hfirst)).2
    rw [Prod.ext hfield.1 hvalue, ih hsame]

end JsonText
