import StellarFeeTracker.General.Net
import StellarFeeTracker.General.Uri

/-!
# The address that a request is counted for

Behind a proxy on the same host, the address of the client is read from `X-Forwarded-For`.  The proxy
adds the address of its peer at the end of that list, and the limiter reads the first element, so the
address is the one the client chose unless it sent none, or none but its own
(`extractClientIp_forward_iff`).
-/

namespace StellarFeeTracker

open Net

/-- What the limiter reads of a request: the address of its peer and the values of its
`X-Forwarded-For` headers, in order. -/
structure ForwardedRequest where
  peer : Option IpAddr
  xForwardedFor : List (List UInt8)
  deriving DecidableEq, Repr

/-- `HeaderValue::to_str`: visible ASCII and tabs. -/
def toStr (value : List UInt8) : Option (List Char) :=
  if value.all fun b => (32 ≤ b && b < 127) || b == 9 then
    some (value.map fun b => Char.ofNat b.toNat)
  else none

/-- The bytes of a text. -/
def utf8 (chars : List Char) : List UInt8 := chars.flatMap String.utf8EncodeChar

/-- A text that is read from bytes has these bytes. -/
theorem utf8_of_toStr {value : List UInt8} {text : List Char} (h : toStr value = some text) :
    utf8 text = value := by
  have hascii : ∀ n < 128, String.utf8EncodeChar (Char.ofNat n) = [UInt8.ofNat n] := by
    decide
  unfold toStr at h
  split_ifs at h with hvisible
  obtain rfl := Option.some.inj h
  rw [List.all_eq_true] at hvisible
  have hbyte : ∀ b ∈ value, String.utf8EncodeChar (Char.ofNat b.toNat) = [b] := by
    intro b hb
    have hsmall : b.toNat < 128 := by
      have h := hvisible b hb
      simp only [Bool.or_eq_true, Bool.and_eq_true, decide_eq_true_eq, beq_iff_eq] at h
      rcases h with ⟨-, hlt⟩ | rfl
      · exact (UInt8.lt_iff_toNat_lt.1 hlt).trans (by decide)
      · decide
    rw [hascii b.toNat hsmall, UInt8.ofNat_toNat]
  unfold utf8
  rw [List.flatMap_map, List.flatMap_congr hbyte]
  exact List.flatMap_singleton' value

def parseXForwardedFor (value : List Char) : Option IpAddr :=
  let firstHop := Uri.trim (value.takeWhile (· != ','))
  match parseIpAddr firstHop with
  | some ip => some ip
  | none => (parseSocketAddr firstHop).map (·.ip)

def extractClientIp (request : ForwardedRequest) : IpAddr :=
  let fromTrustedProxy := request.peer.any IpAddr.isLoopback
  let forwardedIp :=
    if fromTrustedProxy then (request.xForwardedFor.head?.bind toStr).bind parseXForwardedFor
    else none
  match forwardedIp with
  | some ip => ip
  | none => request.peer.getD (.v4 .unspecified)

/-! ## Requests through a proxy -/

/-- The bytes of an ASCII text. -/
def bytes (text : String) : List UInt8 := text.toList.map fun c => UInt8.ofNat c.toNat

/-- The request that a proxy makes of one with the given `X-Forwarded-For`, if any: it adds an element
at the end of the list. -/
def forward (proxy : IpAddr) (element : List UInt8) (supplied : Option (List UInt8)) :
    ForwardedRequest where
  peer := some proxy
  xForwardedFor :=
    match supplied with
    | some list => [list ++ bytes ", " ++ element]
    | none => [element]

/-- The address in the first element of a header value. -/
def firstHop (value : List UInt8) : Option IpAddr := (toStr value).bind parseXForwardedFor

/-- The client sent no list, or one that starts with its own address; or the list does not start with
an address, and the client is at the address of the proxy. -/
def SuppliesOwn (proxy real : IpAddr) (supplied : Option (List UInt8)) : Prop :=
  ∀ list ∈ supplied, firstHop list = some real ∨ firstHop list = none ∧ proxy = real

instance (proxy real : IpAddr) (supplied : Option (List UInt8)) :
    Decidable (SuppliesOwn proxy real supplied) := by
  unfold SuppliesOwn
  infer_instance

theorem toStr_append (front back : List UInt8) :
    toStr (front ++ back) = (toStr front).bind fun a => (toStr back).map fun b => a ++ b := by
  unfold toStr
  rw [List.all_append]
  cases front.all fun b => (32 ≤ b && b < 127) || b == 9 with
  | false => rfl
  | true =>
    cases back.all fun b => (32 ≤ b && b < 127) || b == 9 with
    | false => rfl
    | true => exact congrArg some List.map_append

/-- What follows the first comma is not read. -/
theorem parseXForwardedFor_append (front back : List Char) :
    parseXForwardedFor (front ++ ',' :: back) = parseXForwardedFor front := by
  have hfirst : (front ++ ',' :: back).takeWhile (· != ',') = front.takeWhile (· != ',') := by
    induction front with
    | nil => rfl
    | cons c front ih =>
      rw [List.cons_append, List.takeWhile_cons, List.takeWhile_cons, ih]
  unfold parseXForwardedFor
  rw [hfirst]

/-- An element at the end does not change the first one. -/
theorem firstHop_append {element : List UInt8} (helement : (toStr element).isSome)
    (list : List UInt8) : firstHop (list ++ bytes ", " ++ element) = firstHop list := by
  obtain ⟨text, htext⟩ := Option.isSome_iff_exists.1 helement
  unfold firstHop
  rw [toStr_append, toStr_append, htext]
  cases toStr list with
  | none => rfl
  | some front =>
    show parseXForwardedFor (front ++ [',', ' '] ++ text) = parseXForwardedFor front
    rw [List.append_assoc]
    exact parseXForwardedFor_append front (' ' :: text)

/-- A proxy on the same host that the request comes from is believed. -/
theorem extractClientIp_of_loopback {proxy : IpAddr} (hproxy : proxy.isLoopback = true)
    (value : List UInt8) :
    extractClientIp { peer := some proxy, xForwardedFor := [value] } =
      (firstHop value).getD proxy := by
  unfold extractClientIp
  simp only [Option.any_some, hproxy, if_true, List.head?_cons, Option.bind_some]
  rw [← firstHop]
  cases firstHop value with
  | none => rfl
  | some ip => rfl

/-- A request is counted for its real peer exactly when the client supplied its own address. -/
theorem extractClientIp_forward_iff {proxy real : IpAddr} (hproxy : proxy.isLoopback = true)
    {element : List UInt8} (helement : firstHop element = some real)
    (supplied : Option (List UInt8)) :
    extractClientIp (forward proxy element supplied) = real ↔ SuppliesOwn proxy real supplied := by
  cases supplied with
  | none =>
    refine iff_of_true ?_ (by simp [SuppliesOwn])
    rw [forward, extractClientIp_of_loopback hproxy, helement]
    rfl
  | some list =>
    have hvisible : (toStr element).isSome := by
      cases hstr : toStr element with
      | none =>
        rw [firstHop, hstr] at helement
        cases helement
      | some text => rfl
    have hsupplies : SuppliesOwn proxy real (some list) ↔
        firstHop list = some real ∨ firstHop list = none ∧ proxy = real := by
      simp [SuppliesOwn]
    rw [forward, extractClientIp_of_loopback hproxy, firstHop_append hvisible, hsupplies]
    cases firstHop list with
    | none => simp
    | some ip => simp

/-- Two requests of one peer are both counted for it exactly when the client supplied its own address
with each. -/
theorem clientIp_unforged_iff {proxy real : IpAddr} (hproxy : proxy.isLoopback = true)
    {element : List UInt8} (helement : firstHop element = some real)
    (supplied supplied' : Option (List UInt8)) :
    (extractClientIp (forward proxy element supplied) = real ∧
        extractClientIp (forward proxy element supplied') = real) ↔
      SuppliesOwn proxy real supplied ∧ SuppliesOwn proxy real supplied' :=
  and_congr (extractClientIp_forward_iff hproxy helement supplied)
    (extractClientIp_forward_iff hproxy helement supplied')

/-- Two requests without the header are counted for the peer of the proxy. -/
theorem clientIp_unforged_without_header :
    extractClientIp (forward (.v4 ⟨127, 0, 0, 1⟩) (bytes "203.0.113.7") none) =
        .v4 ⟨203, 0, 113, 7⟩ ∧
      extractClientIp (forward (.v4 ⟨127, 0, 0, 1⟩) (bytes "203.0.113.7") none) =
        .v4 ⟨203, 0, 113, 7⟩ :=
  (clientIp_unforged_iff (by decide) (by decide) none none).2 (by decide)

/-- The peer chooses the address that its requests are counted for. -/
theorem clientIp_forged :
    let ipOf := fun list =>
      extractClientIp (forward (.v4 ⟨127, 0, 0, 1⟩) (bytes "203.0.113.7") (some (bytes list)))
    ipOf "198.51.100.1" = .v4 ⟨198, 51, 100, 1⟩ ∧ ipOf "198.51.100.2" = .v4 ⟨198, 51, 100, 2⟩ ∧
      ¬ (ipOf "198.51.100.1" = .v4 ⟨203, 0, 113, 7⟩ ∧
        ipOf "198.51.100.2" = .v4 ⟨203, 0, 113, 7⟩) := by
  decide

end StellarFeeTracker
