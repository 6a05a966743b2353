import Mathlib.Data.List.DropRight
import Mathlib.Data.List.TakeWhile
import Mathlib.Tactic.Common

/-!
# The host of a URI

The authority of a URI follows its scheme and two slashes and ends at the first slash, question mark
or number sign.  Its host is what is left without the user information and the port; an IPv6 address
stands in brackets.
-/

namespace Uri

/-! ## Trimmed texts -/

/-- The characters with the property `White_Space`. -/
def whiteSpace : List Char :=
  ['\t', '\n', '\x0b', '\x0c', '\r', ' ', '\u0085', '\u00a0', '\u1680', '\u2000', '\u2001', '\u2002',
    '\u2003', '\u2004', '\u2005', '\u2006', '\u2007', '\u2008', '\u2009', '\u200a', '\u2028', '\u2029',
    '\u202f', '\u205f', '\u3000']

def isWhiteSpace (c : Char) : Bool := whiteSpace.contains c

/-- `trim`: the text without white space at its ends. -/
def trim (text : List Char) : List Char := (text.dropWhile isWhiteSpace).rdropWhile isWhiteSpace

theorem rdropWhile_append {p : Char → Bool} {front : List Char}
    (hlast : ∀ hne : front ≠ [], p (front.getLast hne) = false) (text : List Char) :
    (front ++ text).rdropWhile p = front ++ text.rdropWhile p := by
  induction text using List.reverseRecOn with
  | nil =>
    rw [List.append_nil, List.rdropWhile_nil, List.append_nil, List.rdropWhile_eq_self_iff]
    intro hne
    rw [hlast hne]
    exact Bool.false_ne_true
  | append_singleton text c ih =>
    rw [← List.append_assoc, List.rdropWhile_concat, List.rdropWhile_concat, ih]
    split_ifs
    · rfl
    · rw [List.append_assoc]

/-- Trimming a text leaves what stands around a character that is not white space. -/
theorem trim_append_cons {c : Char} (hc : isWhiteSpace c = false) (front text : List Char) :
    trim (front ++ c :: text) =
      front.dropWhile isWhiteSpace ++ c :: text.rdropWhile isWhiteSpace := by
  have hdrop : (front ++ c :: text).dropWhile isWhiteSpace =
      (front.dropWhile isWhiteSpace ++ [c]) ++ text := by
    have hstop : (c :: text).dropWhile isWhiteSpace = c :: text := by
      rw [List.dropWhile_cons, hc]
      rfl
    rw [List.dropWhile_append, hstop]
    cases hfront : front.dropWhile isWhiteSpace with
    | nil => rfl
    | cons d front => simp
  have hlast : ∀ hne : front.dropWhile isWhiteSpace ++ [c] ≠ [],
      isWhiteSpace ((front.dropWhile isWhiteSpace ++ [c]).getLast hne) = false := by
    intro hne
    rwa [List.getLast_append_singleton]
  rw [trim, hdrop, rdropWhile_append hlast, List.append_assoc]
  rfl

theorem dropWhile_of_forall {p : Char → Bool} {text : List Char} (h : ∀ c ∈ text, p c = false) :
    text.dropWhile p = text := by
  rw [List.dropWhile_eq_self_iff]
  intro hlength
  rw [h _ (List.getElem_mem hlength)]
  exact Bool.false_ne_true

theorem trim_of_forall {text : List Char} (h : ∀ c ∈ text, isWhiteSpace c = false) :
    trim text = text := by
  rw [trim, dropWhile_of_forall h, List.rdropWhile_eq_self_iff]
  intro hne
  rw [h _ (List.getLast_mem hne)]
  exact Bool.false_ne_true

theorem not_of_mem_head?_dropWhile {p : Char → Bool} {l : List Char} {c : Char}
    (h : c ∈ (l.dropWhile p).head?) : p c = false := by
  have hhead := List.head?_dropWhile_not p l
  rw [Option.mem_def.1 h] at hhead
  exact hhead

/-! ## Authority and host -/

def endsAuthority (c : Char) : Bool := c == '/' || c == '?' || c == '#'

/-- The authority of a URI whose scheme is followed by two slashes. -/
def authority (uri : List Char) : List Char :=
  (((uri.dropWhile (· != ':')).drop "://".toList.length).takeWhile fun c => !endsAuthority c)

/-- The user information in front of the last at sign. -/
def userInfo (authority : List Char) : Option (List Char) :=
  if '@' ∈ authority then some (authority.rdropWhile (· != '@')).dropLast else none

/-- The authority without the user information. -/
def hostAndPort (authority : List Char) : List Char := authority.rtakeWhile (· != '@')

inductive Host where
  | regName (name : List Char)
  | ipLiteral (address : List Char)
  deriving DecidableEq, Repr

/-- The host that stands before the port. -/
def hostOf : List Char → Host
  | '[' :: rest =>
    if rest.contains ']' then .ipLiteral (rest.takeWhile (· != ']'))
    else .regName (('[' :: rest).takeWhile (· != ':'))
  | text => .regName (text.takeWhile (· != ':'))

def host (uri : List Char) : Host := hostOf (hostAndPort (authority uri))

theorem eq_append_of_userInfo {authority user : List Char} (h : userInfo authority = some user) :
    ∃ rest, authority = user ++ '@' :: rest := by
  unfold userInfo at h
  split_ifs at h with hat
  have hne : authority.rdropWhile (· != '@') ≠ [] := by
    intro hnil
    exact absurd (List.rdropWhile_eq_nil_iff.1 hnil '@' hat) (by decide)
  have hlast : (authority.rdropWhile (· != '@')).getLast hne = '@' := by
    have hnot := List.rdropWhile_last_not _ _ hne
    simpa using hnot
  refine ⟨authority.rtakeWhile (· != '@'), ?_⟩
  rw [← Option.some.inj h]
  calc authority
      = authority.rdropWhile (· != '@') ++ authority.rtakeWhile (· != '@') :=
        List.rdropWhile_append_rtakeWhile.symm
    _ = ((authority.rdropWhile (· != '@')).dropLast ++ ['@']) ++ authority.rtakeWhile (· != '@') := by
        rw [← List.dropLast_append_getLast hne, hlast, List.dropLast_concat]
    _ = _ := List.append_assoc _ _ _

theorem hostAndPort_of_userInfo_eq_none {authority : List Char} (h : userInfo authority = none) :
    hostAndPort authority = authority := by
  unfold userInfo at h
  split_ifs at h with hat
  rw [hostAndPort, List.rtakeWhile_eq_self_iff]
  intro c hc
  have hne : c ≠ '@' := fun heq => hat (heq ▸ hc)
  simpa using hne

theorem hostOf_eq_regName {text name : List Char} (h : hostOf text = .regName name) :
    name = text.takeWhile (· != ':') := by
  unfold hostOf at h
  split at h
  · split_ifs at h
    exact (Host.regName.inj h).symm
  · exact (Host.regName.inj h).symm

theorem hostOf_eq_ipLiteral {text address : List Char} (h : hostOf text = .ipLiteral address) :
    ∃ rest, text = '[' :: rest := by
  unfold hostOf at h
  split at h
  · exact ⟨_, rfl⟩
  · cases h

example : host "https://user:pw@[::1]:8080/x?y".toList = .ipLiteral "::1".toList := by decide
example : host "https://example.com:8080?x@y".toList = .regName "example.com".toList := by
  decide

end Uri
