import StellarFeeTracker.Alerts.Manager
import StellarFeeTracker.General.Separated

/-!
# Spike identities and dedup keys

An identity `severity:start:peak` holds exactly two colons and a dedup key `identity:url` at least
three.  So an identity determines the three values it was made of, a dedup key determines its
identity and its URL, and no dedup key is an identity.
-/

namespace StellarFeeTracker

/-- The key under which the DB-config loop remembers a spike and a webhook URL. -/
def dedupKey (identity url : String) : String := identity ++ ":" ++ url

theorem count_severityToStr (v : SpikeSeverity) : (severityToStr v).toList.count ':' = 0 := by
  cases v <;> decide

theorem severityToStr_injective : Function.Injective severityToStr := by
  intro v w h
  cases v <;> cases w <;> first | rfl | exact absurd h (by decide)

theorem toList_spikeIdentity (s : FeeSpike) :
    (spikeIdentity s).toList = (severityToStr s.severity).toList ++
      ':' :: (s.startTime.timestamp.repr.toList ++ ':' :: s.peakFee.repr.toList) := by
  show (severityToStr s.severity ++ ":" ++ s.startTime.timestamp.repr ++ ":" ++
    s.peakFee.repr).toList = _
  simp [String.toList_append]

theorem count_timestamp (s : FeeSpike) : s.startTime.timestamp.repr.toList.count ':' = 0 :=
  Separated.count_toList_intRepr_eq_zero _ (by decide) (by decide)

theorem count_spikeIdentity (s : FeeSpike) : (spikeIdentity s).toList.count ':' = 2 := by
  have hpeak : s.peakFee.repr.toList.count ':' = 0 :=
    Separated.count_toList_repr_eq_zero _ (by decide)
  rw [toList_spikeIdentity, List.count_append, List.count_cons_self, List.count_append,
    List.count_cons_self, count_severityToStr, count_timestamp, hpeak]

/-- An identity determines the severity, the start in seconds and the peak fee. -/
theorem spikeIdentity_inj {s t : FeeSpike} :
    spikeIdentity s = spikeIdentity t ↔
      s.severity = t.severity ∧ s.startTime.timestamp = t.startTime.timestamp ∧
        s.peakFee = t.peakFee := by
  constructor
  · intro h
    have hl := congrArg String.toList h
    rw [toList_spikeIdentity, toList_spikeIdentity] at hl
    obtain ⟨hsev, hl⟩ := Separated.append_cons_inj_of_count
      (by rw [count_severityToStr, count_severityToStr]) hl
    obtain ⟨hstart, hpeak⟩ := Separated.append_cons_inj_of_count
      (by rw [count_timestamp, count_timestamp]) hl
    exact ⟨severityToStr_injective (String.toList_inj.1 hsev),
      Int.repr_inj.1 (String.toList_inj.1 hstart), Nat.repr_inj.1 (String.toList_inj.1 hpeak)⟩
  · rintro ⟨hsev, hstart, hpeak⟩
    rw [spikeIdentity, spikeIdentity, hsev, hstart, hpeak]

theorem severity_eq_of_spikeIdentity_eq {s t : FeeSpike} (h : spikeIdentity s = spikeIdentity t) :
    s.severity = t.severity := (spikeIdentity_inj.1 h).1

theorem toList_dedupKey (identity url : String) :
    (dedupKey identity url).toList = identity.toList ++ ':' :: url.toList := by
  simp [dedupKey, String.toList_append]

theorem dedupKey_inj {s t : FeeSpike} {u v : String} :
    dedupKey (spikeIdentity s) u = dedupKey (spikeIdentity t) v ↔
      spikeIdentity s = spikeIdentity t ∧ u = v := by
  constructor
  · intro h
    have hl := congrArg String.toList h
    rw [toList_dedupKey, toList_dedupKey] at hl
    obtain ⟨hid, hurl⟩ := Separated.append_cons_inj_of_count
      (by rw [count_spikeIdentity, count_spikeIdentity]) hl
    exact ⟨String.toList_inj.1 hid, String.toList_inj.1 hurl⟩
  · rintro ⟨hid, rfl⟩
    rw [hid]

theorem dedupKey_ne_spikeIdentity (s t : FeeSpike) (url : String) :
    dedupKey (spikeIdentity s) url ≠ spikeIdentity t := by
  intro h
  have hcount := congrArg (fun x : String => x.toList.count ':') h
  simp only [toList_dedupKey, List.count_append, List.count_cons_self, count_spikeIdentity] at hcount
  omega

end StellarFeeTracker
