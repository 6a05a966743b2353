import StellarFeeTracker.General.Separated
import Mathlib.Data.Fin.Basic
import Mathlib.Data.List.TakeWhile

/-!
# Addresses and their texts

IPv4 and IPv6 addresses, the ranges that are not public, and the readers of their texts, alone and
with a port.  An IPv4 text is four decimal octets without leading zeros, so that the text tells the
octets (`IsIpv4Text.prefix_iff`).
-/

namespace Net

/-! ## Addresses -/

structure Ipv4Addr where
  a : Fin 256
  b : Fin 256
  c : Fin 256
  d : Fin 256
  deriving DecidableEq, Repr

namespace Ipv4Addr

variable (ip : Ipv4Addr)

def isUnspecified : Bool := ip == ⟨0, 0, 0, 0⟩

def unspecified : Ipv4Addr := ⟨0, 0, 0, 0⟩

def isLoopback : Bool := ip.a == 127

def isPrivate : Bool :=
  ip.a == 10 || (ip.a == 172 && decide (16 ≤ ip.b ∧ ip.b ≤ 31)) || (ip.a == 192 && ip.b == 168)

def isLinkLocal : Bool := ip.a == 169 && ip.b == 254

/-- The shared range 100.64.0.0/10. -/
def isShared : Bool := ip.a == 100 && decide (64 ≤ ip.b ∧ ip.b ≤ 127)

def isBroadcast : Bool := ip == ⟨255, 255, 255, 255⟩

end Ipv4Addr

/-- An IPv6 address, by its eight segments. -/
structure Ipv6Addr where
  segments : List (Fin 65536)
  deriving DecidableEq, Repr

namespace Ipv6Addr

variable (ip : Ipv6Addr)

def isUnspecified : Bool := ip.segments == [0, 0, 0, 0, 0, 0, 0, 0]

def isLoopback : Bool := ip.segments == [0, 0, 0, 0, 0, 0, 0, 1]

/-- The first segment is in a range. -/
def firstIn (low high : Fin 65536) : Bool :=
  ip.segments.head?.any fun s => decide (low ≤ s ∧ s ≤ high)

def isMulticast : Bool := ip.firstIn 0xff00 0xffff

/-- The private range fc00::/7. -/
def isUniqueLocal : Bool := ip.firstIn 0xfc00 0xfdff

/-- The link-local range fe80::/10. -/
def isUnicastLinkLocal : Bool := ip.firstIn 0xfe80 0xfebf

end Ipv6Addr

inductive IpAddr where
  | v4 (ip : Ipv4Addr)
  | v6 (ip : Ipv6Addr)
  deriving DecidableEq, Repr

def IpAddr.isLoopback : IpAddr → Bool
  | .v4 ip => ip.isLoopback
  | .v6 ip => ip.isLoopback

/-! ## Reading addresses -/

/-- `to_digit`. -/
def toDigit (radix : ℕ) (c : Char) : Option ℕ :=
  let digit :=
    if c.isDigit then c.toNat - '0'.toNat
    else if c.isLower then c.toNat - 'a'.toNat + 10
    else if c.isUpper then c.toNat - 'A'.toNat + 10
    else radix
  if digit < radix then some digit else none

def numberOf (radix : ℕ) (digits : List Char) : ℕ :=
  digits.foldl (fun n c => n * radix + (toDigit radix c).getD 0) 0

/-- `read_number` of a type with `bound` values. -/
def readNumber (radix maxDigits bound : ℕ) (allowZeroPrefix : Bool) (text : List Char) :
    Option (Fin bound × List Char) :=
  let digits := text.takeWhile fun c => (toDigit radix c).isSome
  if digits = [] ∨ maxDigits < digits.length then none
  else if allowZeroPrefix = false ∧ digits.head? = some '0' ∧ 1 < digits.length then none
  else if h : numberOf radix digits < bound then
    some (⟨numberOf radix digits, h⟩, text.dropWhile fun c => (toDigit radix c).isSome)
  else none

def readGivenChar (c : Char) : List Char → Option (List Char)
  | [] => none
  | x :: rest => if x = c then some rest else none

/-- `read_separator`: what follows the separator, which the first part does not have. -/
def readSeparator {α : Type} (sep : Char) (first : Bool)
    (inner : List Char → Option (α × List Char)) (text : List Char) : Option (α × List Char) :=
  if first then inner text else (readGivenChar sep text).bind inner

def readOctet (first : Bool) : List Char → Option (Fin 256 × List Char) :=
  readSeparator '.' first (readNumber 10 3 256 false)

def readIpv4Addr (text : List Char) : Option (Ipv4Addr × List Char) :=
  (readOctet true text).bind fun (a, rest) =>
    (readOctet false rest).bind fun (b, rest) =>
      (readOctet false rest).bind fun (c, rest) =>
        (readOctet false rest).bind fun (d, rest) => some (⟨a, b, c, d⟩, rest)

/-- `read_groups`: the segments, whether the last two are an IPv4 address, and the rest.  As many as
`limit` segments are read. -/
def readGroups : (limit : ℕ) → (first : Bool) → List Char →
    (List (Fin 65536) × Bool) × List Char
  | 0, _, text => (([], false), text)
  | limit + 1, first, text =>
    -- an IPv4 address takes the place of two segments
    match if 0 < limit then readSeparator ':' first readIpv4Addr text else none with
    | some (ip, rest) =>
      (([Fin.ofNat 65536 (256 * ip.a + ip.b), Fin.ofNat 65536 (256 * ip.c + ip.d)], true), rest)
    | none =>
      match readSeparator ':' first (readNumber 16 4 65536 true) text with
      | some (group, rest) =>
        let (groups, rest) := readGroups limit false rest
        ((group :: groups.1, groups.2), rest)
      | none => (([], false), text)

def readIpv6Addr (text : List Char) : Option (Ipv6Addr × List Char) :=
  let (head, rest) := readGroups 8 true text
  if head.1.length = 8 then some (⟨head.1⟩, rest)
  else if head.2 then none
  else
    ((readGivenChar ':' rest).bind (readGivenChar ':')).map fun rest =>
      let (tail, rest) := readGroups (8 - (head.1.length + 1)) true rest
      (⟨head.1 ++ List.replicate (8 - head.1.length - tail.1.length) 0 ++ tail.1⟩, rest)

/-- What was read, when nothing is left. -/
def complete {α : Type} : Option (α × List Char) → Option α
  | some (x, []) => some x
  | _ => none

def parseIpv4Addr (text : List Char) : Option Ipv4Addr := complete (readIpv4Addr text)

def parseIpv6Addr (text : List Char) : Option Ipv6Addr := complete (readIpv6Addr text)

/-- `parse::<IpAddr>`. -/
def parseIpAddr (text : List Char) : Option IpAddr :=
  complete (match readIpv4Addr text with
    | some (ip, rest) => some (.v4 ip, rest)
    | none => (readIpv6Addr text).map fun (ip, rest) => (.v6 ip, rest))

/-! ## Octets -/

theorem toDigit_ten (c : Char) :
    toDigit 10 c = if c.isDigit then some (c.toNat - '0'.toNat) else none := by
  unfold toDigit
  by_cases hdigit : c.isDigit = true
  · have hle : '0'.toNat ≤ c.toNat ∧ c.toNat ≤ '9'.toNat := Char.isDigit_iff_toNat.1 hdigit
    have hlt : c.toNat - '0'.toNat < 10 := by
      have h9 : '9'.toNat = '0'.toNat + 9 := rfl
      omega
    simp only [hdigit, if_true, if_pos hlt]
  · have hlarge : ¬ (if c.isDigit then c.toNat - '0'.toNat
        else if c.isLower then c.toNat - 'a'.toNat + 10
        else if c.isUpper then c.toNat - 'A'.toNat + 10 else 10) < 10 := by
      rw [if_neg hdigit]
      split_ifs
      · exact not_lt.2 (Nat.le_add_left 10 _)
      · exact not_lt.2 (Nat.le_add_left 10 _)
      · exact lt_irrefl 10
    exact (if_neg hlarge).trans (if_neg hdigit).symm

/-- A text of an octet: three digits at most, no leading zero. -/
structure IsOctet (digits : List Char) (n : ℕ) : Prop where
  ne_nil : digits ≠ []
  length_le : digits.length ≤ 3
  isDigit : ∀ c ∈ digits, c.isDigit = true
  canonical : ¬ (digits.head? = some '0' ∧ 1 < digits.length)
  value : numberOf 10 digits = n

/-- The conditions on a text of an octet, as a test. -/
theorem isOctet_of_decide (digits : List Char) (n : ℕ)
    (h : (decide (digits ≠ []) && decide (digits.length ≤ 3) && digits.all Char.isDigit &&
      !(digits.head? == some '0' && decide (1 < digits.length)) &&
      numberOf 10 digits == n) = true) : IsOctet digits n := by
  simp only [Bool.and_eq_true, decide_eq_true_eq, List.all_eq_true, Bool.not_eq_true',
    beq_iff_eq] at h
  obtain ⟨⟨⟨⟨hne, hlength⟩, hdigit⟩, hcanonical⟩, hvalue⟩ := h
  refine ⟨hne, hlength, hdigit, ?_, hvalue⟩
  rintro ⟨hzero, hlong⟩
  rw [hzero, decide_eq_true hlong] at hcanonical
  cases hcanonical

theorem readNumber_octet_eq_some {text rest : List Char} {n : Fin 256}
    (h : readNumber 10 3 256 false text = some (n, rest)) :
    ∃ digits, text = digits ++ rest ∧ IsOctet digits n := by
  unfold readNumber at h
  simp only at h
  split_ifs at h with hlength hzero hlt
  rw [not_or] at hlength
  obtain ⟨rfl, rfl⟩ := Prod.mk.inj (Option.some.inj h)
  refine ⟨_, ?_, hlength.1, not_lt.1 hlength.2, ?_, ?_, rfl⟩
  · exact List.takeWhile_append_dropWhile.symm
  · intro c hc
    have hsome := List.mem_takeWhile_imp hc
    rw [toDigit_ten] at hsome
    by_contra hnot
    rw [if_neg hnot] at hsome
    cases hsome
  · exact fun hcanonical => hzero ⟨trivial, hcanonical⟩

theorem numberOf_three {x y z : Char} (hx : x.isDigit = true) (hy : y.isDigit = true)
    (hz : z.isDigit = true) :
    numberOf 10 [x, y, z] = 100 * (x.toNat - 48) + 10 * (y.toNat - 48) + (z.toNat - 48) := by
  have h48 : '0'.toNat = 48 := rfl
  simp only [numberOf, List.foldl_cons, List.foldl_nil, toDigit_ten, hx, hy, hz, if_true,
    Option.getD_some, h48]
  omega

/-- A number of three digits at most, padded with zeros in front. -/
theorem IsOctet.exists_three {digits : List Char} {n : ℕ} (h : IsOctet digits n) :
    ∃ x y z : Char, x.isDigit = true ∧ y.isDigit = true ∧ z.isDigit = true ∧
      n = 100 * (x.toNat - 48) + 10 * (y.toNat - 48) + (z.toNat - 48) ∧
      digits = if x ≠ '0' then [x, y, z] else if y ≠ '0' then [y, z] else [z] := by
  obtain ⟨hne, hlength, hdigit, hcanonical, hvalue⟩ := h
  have hzero : '0'.isDigit = true := by decide
  rcases digits with _ | ⟨x, _ | ⟨y, _ | ⟨z, _ | ⟨w, digits⟩⟩⟩⟩
  · exact absurd rfl hne
  · have hx := hdigit x (by simp)
    refine ⟨'0', '0', x, hzero, hzero, hx, ?_, by simp⟩
    rw [← hvalue, ← numberOf_three hzero hzero hx]
    rfl
  · have hx := hdigit x (by simp)
    have hy := hdigit y (by simp)
    have hlead : x ≠ '0' := by
      rintro rfl
      exact hcanonical ⟨rfl, by simp⟩
    refine ⟨'0', x, y, hzero, hx, hy, ?_, by simp [hlead]⟩
    rw [← hvalue, ← numberOf_three hzero hx hy]
    rfl
  · have hx := hdigit x (by simp)
    have hy := hdigit y (by simp)
    have hz := hdigit z (by simp)
    have hlead : x ≠ '0' := by
      rintro rfl
      exact hcanonical ⟨rfl, by simp⟩
    exact ⟨x, y, z, hx, hy, hz, by rw [← hvalue, numberOf_three hx hy hz], by simp [hlead]⟩
  · simp only [List.length_cons] at hlength
    omega

/-- An octet has one text. -/
theorem IsOctet.inj {digits digits' : List Char} {n : ℕ} (h : IsOctet digits n)
    (h' : IsOctet digits' n) : digits = digits' := by
  obtain ⟨x, y, z, hx, hy, hz, hn, rfl⟩ := h.exists_three
  obtain ⟨x', y', z', hx', hy', hz', hn', rfl⟩ := h'.exists_three
  have hbounds : ∀ {c : Char}, c.isDigit = true → 48 ≤ c.toNat ∧ c.toNat ≤ 57 :=
    fun h => Char.isDigit_iff_toNat.1 h
  have hx := hbounds hx
  have hy := hbounds hy
  have hz := hbounds hz
  have hx' := hbounds hx'
  have hy' := hbounds hy'
  have hz' := hbounds hz'
  have hxx : x = x' := Char.toNat_inj.1 (by omega)
  have hyy : y = y' := Char.toNat_inj.1 (by omega)
  have hzz : z = z' := Char.toNat_inj.1 (by omega)
  rw [hxx, hyy, hzz]

theorem IsOctet.count_dot {digits : List Char} {n : ℕ} (h : IsOctet digits n) :
    digits.count '.' = 0 := by
  refine List.count_eq_zero.2 fun hdot => ?_
  exact absurd (h.isDigit '.' hdot) (by decide)

/-! ## Texts of addresses -/

theorem readGivenChar_eq_some {c : Char} {text rest : List Char}
    (h : readGivenChar c text = some rest) : text = c :: rest := by
  cases text with
  | nil => cases h
  | cons x text =>
    rw [readGivenChar] at h
    split_ifs at h with hx
    rw [hx, Option.some.inj h]

theorem readGivenChar_of_notMem {c : Char} {text : List Char} (h : c ∉ text) :
    readGivenChar c text = none := by
  cases hread : readGivenChar c text with
  | none => rfl
  | some rest =>
    rw [readGivenChar_eq_some hread] at h
    exact absurd List.mem_cons_self h

theorem readOctet_false_eq_some {text rest : List Char} {n : Fin 256}
    (h : readOctet false text = some (n, rest)) :
    ∃ digits, text = '.' :: (digits ++ rest) ∧ IsOctet digits n := by
  unfold readOctet readSeparator at h
  obtain ⟨after, hdot, hnumber⟩ := Option.bind_eq_some_iff.1 h
  obtain ⟨digits, hafter, hoctet⟩ := readNumber_octet_eq_some hnumber
  exact ⟨digits, by rw [readGivenChar_eq_some hdot, hafter], hoctet⟩

/-- A text of an IPv4 address. -/
def IsIpv4Text (text : List Char) (ip : Ipv4Addr) : Prop :=
  ∃ a b c d, text = a ++ '.' :: (b ++ '.' :: (c ++ '.' :: d)) ∧
    IsOctet a ip.a ∧ IsOctet b ip.b ∧ IsOctet c ip.c ∧ IsOctet d ip.d

theorem readIpv4Addr_eq_some {text rest : List Char} {ip : Ipv4Addr}
    (h : readIpv4Addr text = some (ip, rest)) : ∃ front, text = front ++ rest ∧ IsIpv4Text front ip := by
  unfold readIpv4Addr at h
  obtain ⟨⟨a, rest₁⟩, ha, h⟩ := Option.bind_eq_some_iff.1 h
  obtain ⟨⟨b, rest₂⟩, hb, h⟩ := Option.bind_eq_some_iff.1 h
  obtain ⟨⟨c, rest₃⟩, hc, h⟩ := Option.bind_eq_some_iff.1 h
  obtain ⟨⟨d, rest₄⟩, hd, h⟩ := Option.bind_eq_some_iff.1 h
  obtain ⟨rfl, rfl⟩ := Prod.mk.inj (Option.some.inj h)
  obtain ⟨da, hda, hoa⟩ := readNumber_octet_eq_some ha
  obtain ⟨db, hdb, hob⟩ := readOctet_false_eq_some hb
  obtain ⟨dc, hdc, hoc⟩ := readOctet_false_eq_some hc
  obtain ⟨dd, hdd, hod⟩ := readOctet_false_eq_some hd
  refine ⟨da ++ '.' :: (db ++ '.' :: (dc ++ '.' :: dd)), ?_, da, db, dc, dd, rfl, hoa, hob, hoc, hod⟩
  rw [hda, hdb, hdc, hdd]
  simp only [List.append_assoc, List.cons_append]

theorem complete_eq_some {α : Type} {read : Option (α × List Char)} {x : α}
    (h : complete read = some x) : read = some (x, []) := by
  rcases read with _ | ⟨y, _ | ⟨c, rest⟩⟩
  · cases h
  · rw [Option.some.inj h]
  · cases h

theorem isIpv4Text_of_parseIpv4Addr {text : List Char} {ip : Ipv4Addr}
    (h : parseIpv4Addr text = some ip) : IsIpv4Text text ip := by
  obtain ⟨front, htext, hfront⟩ := readIpv4Addr_eq_some (complete_eq_some h)
  rwa [htext, List.append_nil]

/-- An IPv4 text has digits and dots only. -/
theorem IsIpv4Text.isDigit_or_eq_dot {text : List Char} {ip : Ipv4Addr} (h : IsIpv4Text text ip)
    {c : Char} (hc : c ∈ text) : c.isDigit = true ∨ c = '.' := by
  obtain ⟨a, b, c', d, rfl, ha, hb, hc', hd⟩ := h
  simp only [List.mem_append, List.mem_cons] at hc
  rcases hc with hc | hc | hc | hc | hc | hc | hc
  · exact Or.inl (ha.isDigit c hc)
  · exact Or.inr hc
  · exact Or.inl (hb.isDigit c hc)
  · exact Or.inr hc
  · exact Or.inl (hc'.isDigit c hc)
  · exact Or.inr hc
  · exact Or.inl (hd.isDigit c hc)

theorem IsIpv4Text.ne_nil {text : List Char} {ip : Ipv4Addr} (h : IsIpv4Text text ip) :
    text ≠ [] := by
  obtain ⟨a, b, c, d, rfl, -⟩ := h
  exact List.append_ne_nil_of_right_ne_nil _ (List.cons_ne_nil _ _)

/-- The first two octets of an address can be seen in its text. -/
theorem IsIpv4Text.prefix_iff {text x y : List Char} {ip : Ipv4Addr} {m n : ℕ}
    (h : IsIpv4Text text ip) (hx : IsOctet x m) (hy : IsOctet y n) :
    x ++ '.' :: (y ++ ['.']) <+: text ↔ ip.a.val = m ∧ ip.b.val = n := by
  obtain ⟨a, b, c, d, rfl, ha, hb, -, -⟩ := h
  constructor
  · rintro ⟨rest, hrest⟩
    rw [List.append_assoc, List.cons_append, List.append_assoc, List.singleton_append] at hrest
    obtain ⟨rfl, htail⟩ :=
      Separated.append_cons_inj_of_count (hx.count_dot.trans ha.count_dot.symm) hrest
    obtain ⟨rfl, -⟩ :=
      Separated.append_cons_inj_of_count (hy.count_dot.trans hb.count_dot.symm) htail
    exact ⟨ha.value.symm.trans hx.value, hb.value.symm.trans hy.value⟩
  · rintro ⟨rfl, rfl⟩
    rw [hx.inj ha, hy.inj hb]
    exact ⟨c ++ '.' :: d, by simp only [List.append_assoc, List.cons_append, List.nil_append]⟩

theorem parseIpv4Addr_eq_none_of_mem {text : List Char} {c : Char} (hc : c ∈ text)
    (hdigit : c.isDigit = false) (hdot : c ≠ '.') : parseIpv4Addr text = none := by
  cases hparse : parseIpv4Addr text with
  | none => rfl
  | some ip =>
    rcases (isIpv4Text_of_parseIpv4Addr hparse).isDigit_or_eq_dot hc with h | h
    · rw [hdigit] at h
      cases h
    · exact absurd h hdot

/-! ## Texts without a colon -/

theorem readNumber_eq_some_suffix {radix maxDigits bound : ℕ} {allowZeroPrefix : Bool}
    {text rest : List Char} {n : Fin bound}
    (h : readNumber radix maxDigits bound allowZeroPrefix text = some (n, rest)) :
    rest <:+ text := by
  unfold readNumber at h
  simp only at h
  split_ifs at h
  rw [← (Prod.mk.inj (Option.some.inj h)).2]
  exact List.dropWhile_suffix _

theorem readSeparator_of_notMem {α : Type} {inner : List Char → Option (α × List Char)}
    {text : List Char} (h : ':' ∉ text) : readSeparator ':' false inner text = none := by
  unfold readSeparator
  rw [readGivenChar_of_notMem h]
  rfl

theorem readGroups_of_notMem {text : List Char} (h : ':' ∉ text) (limit : ℕ) :
    readGroups limit false text = (([], false), text) := by
  cases limit with
  | zero => rfl
  | succ limit =>
    rw [readGroups, readSeparator_of_notMem h, readSeparator_of_notMem h, ite_self]

/-- Without a colon no more than two segments are read, and no colon is left. -/
theorem readGroups_true_of_notMem {text : List Char} (h : ':' ∉ text) (limit : ℕ) :
    (readGroups limit true text).1.1.length ≤ 2 ∧ ':' ∉ (readGroups limit true text).2 := by
  cases limit with
  | zero => exact ⟨Nat.zero_le 2, h⟩
  | succ limit =>
    rw [readGroups]
    split
    · rename_i ip rest hread
      split_ifs at hread
      obtain ⟨front, htext, -⟩ := readIpv4Addr_eq_some hread
      refine ⟨le_rfl, fun hcolon => h ?_⟩
      rw [htext]
      exact List.mem_append_right front hcolon
    · cases hread : readSeparator ':' true (readNumber 16 4 65536 true) text with
      | none => exact ⟨Nat.zero_le 2, h⟩
      | some read =>
        obtain ⟨group, rest⟩ := read
        have hrest : ':' ∉ rest := fun hcolon => h ((readNumber_eq_some_suffix hread).mem hcolon)
        simp only [readGroups_of_notMem hrest]
        exact ⟨Nat.le_succ 1, hrest⟩

/-- An IPv6 text has a colon. -/
theorem readIpv6Addr_of_notMem {text : List Char} (h : ':' ∉ text) : readIpv6Addr text = none := by
  obtain ⟨hlength, hrest⟩ := readGroups_true_of_notMem h 8
  unfold readIpv6Addr
  generalize readGroups 8 true text = read at hlength hrest
  obtain ⟨⟨head, embedded⟩, rest⟩ := read
  simp only at hlength hrest ⊢
  rw [if_neg (by omega), readGivenChar_of_notMem hrest]
  cases embedded
  · rfl
  · rfl

/-- A text without a colon is read as an IPv4 address or not at all. -/
theorem parseIpAddr_of_notMem {text : List Char} (h : ':' ∉ text) :
    parseIpAddr text = (parseIpv4Addr text).map .v4 := by
  unfold parseIpAddr parseIpv4Addr
  rw [readIpv6Addr_of_notMem h]
  cases readIpv4Addr text with
  | none => rfl
  | some read =>
    obtain ⟨ip, _ | ⟨c, rest⟩⟩ := read
    · rfl
    · rfl

example : parseIpv4Addr "100.64.0.1".toList = some ⟨100, 64, 0, 1⟩ := by decide
example : parseIpv4Addr "127.0.0.01".toList = none := by decide
example : parseIpAddr "::ffff:1.2.3.4".toList =
    some (.v6 ⟨[0, 0, 0, 0, 0, 0xffff, 0x102, 0x304]⟩) := by decide

/-! ## Socket addresses -/

/-- An address with a port. -/
structure SocketAddr where
  ip : IpAddr
  port : Fin 65536
  deriving DecidableEq, Repr

/-- `read_port`. -/
def readPort (text : List Char) : Option (Fin 65536 × List Char) :=
  (readGivenChar ':' text).bind fun rest => readNumber 10 rest.length 65536 true rest

/-- `read_scope_id`, which reads nothing where there is none: what follows the scope. -/
def skipScopeId (text : List Char) : List Char :=
  match (readGivenChar '%' text).bind fun rest => readNumber 10 rest.length 4294967296 true rest with
  | some (_, rest) => rest
  | none => text

def readSocketAddrV4 (text : List Char) : Option (SocketAddr × List Char) :=
  (readIpv4Addr text).bind fun (ip, rest) =>
    (readPort rest).map fun (port, rest) => ({ ip := .v4 ip, port }, rest)

def readSocketAddrV6 (text : List Char) : Option (SocketAddr × List Char) :=
  (readGivenChar '[' text).bind fun rest =>
    (readIpv6Addr rest).bind fun (ip, rest) =>
      (readGivenChar ']' (skipScopeId rest)).bind fun rest =>
        (readPort rest).map fun (port, rest) => ({ ip := .v6 ip, port }, rest)

/-- `parse::<SocketAddr>`. -/
def parseSocketAddr (text : List Char) : Option SocketAddr :=
  complete (match readSocketAddrV4 text with
    | some read => some read
    | none => readSocketAddrV6 text)

example : (parseSocketAddr "192.0.2.11:40000".toList).map (·.ip) = some (.v4 ⟨192, 0, 2, 11⟩) := by
  decide
example : (parseSocketAddr "[::1%3]:080".toList).map (·.port) = some 80 := by decide
example : parseSocketAddr "192.0.2.11:65536".toList = none := by decide

end Net
