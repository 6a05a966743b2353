import StellarFeeTracker.General.Memo
import StellarFeeTracker.Recommendation.Types

/-!
# Recommendation cache

The monotonic clock of the cache is counted in nanoseconds.
-/

namespace StellarFeeTracker

/-- Target ledgers, urgency and network condition. -/
abbrev CacheKey := ℕ × String × String

structure RecommendationCache where
  entries : Memo.Cache CacheKey RecommendResponse
  ttl : Duration

namespace RecommendationCache

def new (ttlSecs : ℕ) : RecommendationCache where
  entries := Memo.Cache.empty
  ttl := seconds ttlSecs

variable (cache : RecommendationCache)

/-- The response under a key, unless it expired. -/
def get (key : CacheKey) (now : ℤ) : Option RecommendResponse := Memo.lookup cache.entries key now

def set (key : CacheKey) (value : RecommendResponse) (now : ℤ) : RecommendationCache :=
  { cache with entries := Memo.insert cache.entries key value (now + cache.ttl) }

end RecommendationCache

end StellarFeeTracker
