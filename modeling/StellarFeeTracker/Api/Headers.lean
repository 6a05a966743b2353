import StellarFeeTracker.General.Digest
import StellarFeeTracker.Middleware.ClientIp

/-!
# Caching headers

The tag of a response is the digest of its body, and a tag that a client sends back matches the body
whose digest it is (`ifNoneMatchMatches_etag`).  So the tag of a body in which one byte has changed
since does not match (`etag_detects_one_byte`).
-/

namespace StellarFeeTracker

open Digest

def fnvOffset : BitVec 64 := 14695981039346656037#64

def fnvPrime : BitVec 64 := 1099511628211#64

/-- The digest of a response. -/
def bodyDigest (body : List UInt8) : BitVec 64 := fnv1a fnvOffset fnvPrime body

/-- Compute a stable quoted ETag from response bytes using FNV-1a (64-bit). -/
def computeEtag (body : List UInt8) : String :=
  String.ofList ('\x22' :: hex (bodyDigest body).toNat ++ ['\x22'])

/-- Build a Cache-Control value using max-age and stale-while-revalidate. -/
def cacheControl (maxAge swr : ℕ) : String :=
  "max-age=" ++ toString maxAge ++ ", stale-while-revalidate=" ++ toString swr

/-- `If-None-Match` contains `*` or the exact current ETag. -/
def ifNoneMatchMatches (ifNoneMatch : List (List UInt8)) (currentEtag : String) : Bool :=
  match ifNoneMatch.head?.bind toStr with
  | some raw =>
    (raw.splitOn ',').any fun tag => Uri.trim tag = ['*'] ∨ Uri.trim tag = currentEtag.toList
  | none => false

/-! ## A tag that is sent back -/

theorem fnvPrime_mul_inverse : fnvPrime * 14886173955864302971#64 = 1#64 := by decide

/-- Bodies with one end have the same digest exactly when they have it without that end. -/
theorem bodyDigest_append_inj (front front' back : List UInt8) :
    bodyDigest (front ++ back) = bodyDigest (front' ++ back) ↔
      bodyDigest front = bodyDigest front' :=
  fnv1a_append_inj fnvPrime_mul_inverse front front' back

theorem bodyDigest_ne_of_differences {body body' : List UInt8}
    (hlength : body.length = body'.length) (h : differences body body' = 1) :
    bodyDigest body ≠ bodyDigest body' :=
  fnv1a_ne_of_differences (by decide) fnvPrime_mul_inverse hlength h

theorem computeEtag_inj (body body' : List UInt8) :
    computeEtag body = computeEtag body' ↔ bodyDigest body = bodyDigest body' := by
  constructor
  · intro h
    have hchars := List.append_cancel_right (List.cons.inj (String.ofList_injective h)).2
    exact BitVec.eq_of_toNat_eq (hex_injective hchars)
  · intro h
    rw [computeEtag, computeEtag, h]

/-- A tag holds quotes and hexadecimal digits. -/
theorem of_mem_computeEtag {body : List UInt8} {c : Char} (h : c ∈ (computeEtag body).toList) :
    (32 ≤ c.toNat ∧ c.toNat < 127) ∧ c ≠ ',' ∧ Uri.isWhiteSpace c = false := by
  have hdigit : ∀ d < 16, (32 ≤ d.digitChar.toNat ∧ d.digitChar.toNat < 127) ∧ d.digitChar ≠ ',' ∧
      Uri.isWhiteSpace d.digitChar = false := by decide
  rw [computeEtag, String.toList_ofList, List.cons_append, List.mem_cons, List.mem_append,
    List.mem_singleton] at h
  rcases h with rfl | h | rfl
  · decide
  · obtain ⟨d, hd, rfl⟩ := mem_hex h
    exact hdigit d hd
  · decide

theorem toStr_bytes {text : String} (h : ∀ c ∈ text.toList, 32 ≤ c.toNat ∧ c.toNat < 127) :
    toStr (bytes text) = some text.toList := by
  have hbyte : ∀ c ∈ text.toList, (UInt8.ofNat c.toNat).toNat = c.toNat := by
    intro c hc
    rw [UInt8.toNat_ofNat', Nat.mod_eq_of_lt]
    exact (h c hc).2.trans (by decide)
  have hvisible : ((bytes text).all fun b => (32 ≤ b && b < 127) || b == 9) = true := by
    rw [bytes, List.all_map, List.all_eq_true]
    intro c hc
    have hlow : (32 : UInt8) ≤ UInt8.ofNat c.toNat := by
      rw [UInt8.le_iff_toNat_le, hbyte c hc]
      exact (h c hc).1
    have hhigh : UInt8.ofNat c.toNat < (127 : UInt8) := by
      rw [UInt8.lt_iff_toNat_lt, hbyte c hc]
      exact (h c hc).2
    simp [hlow, hhigh]
  have hback : (bytes text).map (fun b => Char.ofNat b.toNat) = text.toList := by
    rw [bytes, List.map_map]
    refine (List.map_congr_left fun c hc => ?_).trans (List.map_id _)
    rw [Function.comp_apply, hbyte c hc, Char.ofNat_toNat]
    rfl
  rw [toStr, if_pos hvisible, hback]

/-- The tag of a body matches the tag of the other body exactly when they have the same digest. -/
theorem ifNoneMatchMatches_etag (body body' : List UInt8) :
    ifNoneMatchMatches [bytes (computeEtag body)] (computeEtag body') = true ↔
      bodyDigest body = bodyDigest body' := by
  have hread : toStr (bytes (computeEtag body)) = some (computeEtag body).toList :=
    toStr_bytes fun c hc => (of_mem_computeEtag hc).1
  have hsplit : (computeEtag body).toList.splitOn ',' = [(computeEtag body).toList] := by
    rw [List.splitOn, List.splitOnP_eq_singleton]
    intro c hc
    simpa using (of_mem_computeEtag hc).2.1
  have htrim : Uri.trim (computeEtag body).toList = (computeEtag body).toList :=
    Uri.trim_of_forall fun c hc => (of_mem_computeEtag hc).2.2
  have hstar : (computeEtag body).toList ≠ ['*'] := by
    rw [computeEtag, String.toList_ofList]
    exact fun h => absurd (List.cons.inj h).1 (by decide)
  rw [← computeEtag_inj, ifNoneMatchMatches, List.head?_cons, Option.bind_some, hread]
  simp [hsplit, htrim, hstar, String.toList_inj]

/-- Bodies of one length that differ in exactly one byte have different tags, and a request that
sends the tag of the one does not match the other. -/
theorem etag_detects_one_byte {body body' : List UInt8} (hlength : body.length = body'.length)
    (h : differences body body' = 1) :
    computeEtag body ≠ computeEtag body' ∧
      ∀ more, ifNoneMatchMatches (bytes (computeEtag body) :: more) (computeEtag body') = false := by
  have hdigest := bodyDigest_ne_of_differences hlength h
  refine ⟨fun htag => hdigest ((computeEtag_inj body body').1 htag), fun more => ?_⟩
  have hfirst : ifNoneMatchMatches (bytes (computeEtag body) :: more) (computeEtag body') =
      ifNoneMatchMatches [bytes (computeEtag body)] (computeEtag body') := rfl
  rw [hfirst, Bool.eq_false_iff, Ne, ifNoneMatchMatches_etag]
  exact hdigest

/-- A fee has changed from 100 to 900. -/
theorem etag_detects_one_byte_fee :
    ifNoneMatchMatches [bytes (computeEtag (bytes "100"))] (computeEtag (bytes "900")) = false :=
  (etag_detects_one_byte (by decide) (by decide)).2 []

end StellarFeeTracker
