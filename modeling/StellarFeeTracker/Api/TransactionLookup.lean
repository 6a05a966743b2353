import StellarFeeTracker.Middleware.ClientIp
import StellarFeeTracker.Polling.Crashes

/-!
# Looking up the fee of a transaction

`GET /fees/transaction/:hash` answers from the history store.  Whatever crashes there are, an answer is
the point that some tick has fetched, through the table and back (`Lives.lookups_exact`), and a point
whose insert was made in some life is found after a restart within a day
(`Lives.inserted_found_after_restart`).
-/

namespace StellarFeeTracker

open Machine

/-! ## The handler -/

structure TransactionFeeResponse where
  transactionHash : String
  feeAmount : ℕ
  ledgerSequence : ℕ
  timestamp : DateTime
  deriving DecidableEq, Repr

def TransactionFeeResponse.ofPoint (p : FeeDataPoint) : TransactionFeeResponse where
  transactionHash := p.transactionHash
  feeAmount := p.feeAmount
  ledgerSequence := p.ledgerSequence
  timestamp := p.timestamp

/-- The errors of the handler, answered with status 400 and 404. -/
inductive LookupError where
  | badRequest (message : String)
  | notFound (message : String)
  deriving DecidableEq, Repr

def isAsciiHexdigit (b : UInt8) : Bool :=
  (48 ≤ b && b ≤ 57) || (97 ≤ b && b ≤ 102) || (65 ≤ b && b ≤ 70)

/-- A transaction hash is 64 hexadecimal characters. -/
def isTxHash (hash : String) : Bool :=
  (utf8 hash.toList).length == 64 && (utf8 hash.toList).all isAsciiHexdigit

def validateTxHash (hash : String) : Except LookupError Unit :=
  if isTxHash hash then .ok ()
  else .error (.badRequest "transaction hash must be 64 hexadecimal characters")

def transactionFeeLookup (store : FeeHistoryStore) (hash : String) :
    Except LookupError TransactionFeeResponse := do
  validateTxHash hash
  match store.getByHash hash with
  | some p =>
    return {
      transactionHash := p.transactionHash
      feeAmount := p.feeAmount
      ledgerSequence := p.ledgerSequence
      timestamp := p.timestamp }
  | none => throw (.notFound ("Transaction not found: " ++ hash))

/-- A lookup in a store whose hashes differ finds the point with the hash. -/
theorem transactionFeeLookup_eq_ok_iff {store : FeeHistoryStore} (h : store.DistinctHashes)
    {hash : String} {response : TransactionFeeResponse} :
    transactionFeeLookup store hash = .ok response ↔
      isTxHash hash = true ∧
        ∃ p ∈ store.data, p.transactionHash = hash ∧ response = .ofPoint p := by
  have hfind : ∀ p, store.getByHash hash = some p ↔ p ∈ store.data ∧ p.transactionHash = hash := by
    intro p
    unfold FeeHistoryStore.getByHash
    constructor
    · intro hp
      have hhash := List.find?_some hp
      exact ⟨List.mem_of_find?_eq_some hp, by simpa using hhash⟩
    · rintro ⟨hp, rfl⟩
      cases hq : store.data.find? fun q => q.transactionHash == p.transactionHash with
      | none => exact absurd (List.find?_eq_none.1 hq p hp) (by simp)
      | some q =>
        have hhash := List.find?_some hq
        rw [beq_iff_eq] at hhash
        rw [List.inj_on_of_nodup_map h (List.mem_of_find?_eq_some hq) hp hhash]
  unfold transactionFeeLookup validateTxHash
  cases hvalid : isTxHash hash with
  | false => simp [bind, Except.bind]
  | true =>
    cases hget : store.getByHash hash with
    | none =>
      simp only [if_true, bind, Except.bind, throw, throwThe, MonadExceptOf.throw, true_and,
        reduceCtorEq, false_iff]
      rintro ⟨p, hp, hhash, -⟩
      rw [(hfind p).2 ⟨hp, hhash⟩] at hget
      cases hget
    | some p =>
      simp only [if_true, bind, Except.bind, pure, Except.pure, Except.ok.injEq, true_and]
      obtain ⟨hp, hhash⟩ := (hfind p).1 hget
      constructor
      · rintro rfl
        exact ⟨p, hp, hhash, rfl⟩
      · rintro ⟨q, hq, hhash', rfl⟩
        rw [List.inj_on_of_nodup_map h hq hp (hhash'.trans hhash.symm)]
        rfl

/-! ## What is served was fetched -/

namespace Lives

variable {lives : Lives} {text : Rfc3339}

/-- The points that the tick of an event fetches. -/
def fetchedBy (lives : Lives) : LifeEvent → List FeeDataPoint
  | .tick tick => lives.poller.fetched tick
  | .crash (some (tick, _)) _ => lives.poller.fetched tick
  | .crash none _ => []

/-- The store and the table have points with a property only. -/
structure Only (text : Rfc3339) (good : FeeDataPoint → Prop) (s : PollState) : Prop where
  store : ∀ p ∈ s.store.data, good p
  rows : ∀ row ∈ s.database.feeDataPoints, ∃ p, good p ∧ row = FeeRow.ofPoint text p

section Only

variable {good : FeeDataPoint → Prop} {s : PollState}

theorem rows_inserted {db : Database}
    (hrows : ∀ row ∈ db.feeDataPoints, ∃ p, good p ∧ row = FeeRow.ofPoint text p)
    {points : List FeeDataPoint} (hpoints : ∀ p ∈ points, good p) (poller : Poller) (tick : PollTick) :
    ∀ row ∈ (poller.inserted text tick points db).feeDataPoints,
      ∃ p, good p ∧ row = FeeRow.ofPoint text p := by
  unfold Poller.inserted
  split_ifs
  · intro row hrow
    rw [Database.insertFeePoints_feeDataPoints, List.mem_append, List.mem_map] at hrow
    rcases hrow with hrow | ⟨p, hp, rfl⟩
    · exact hrows row hrow
    · exact ⟨p, hpoints p ((FirstByKey.firstByKey_sublist _ _ _).subset hp), rfl⟩
  · exact hrows

theorem rows_persistUpTo {db : Database}
    (hrows : ∀ row ∈ db.feeDataPoints, ∃ p, good p ∧ row = FeeRow.ofPoint text p)
    {points : List FeeDataPoint} (hpoints : ∀ p ∈ points, good p) (poller : Poller) (tick : PollTick)
    (done : ℕ) :
    ∀ row ∈ (poller.persistUpTo text tick points done db).feeDataPoints,
      ∃ p, good p ∧ row = FeeRow.ofPoint text p := by
  intro row hrow
  rw [Poller.persistUpTo_feeDataPoints] at hrow
  have hmem := (List.mem_filter.1 hrow).1
  split_ifs at hmem
  · exact hrows row hmem
  · exact rows_inserted hrows hpoints poller tick row hmem

/-- A start reads back what was written. -/
theorem good_of_mem_readAtStart (hgood : ∀ p, good p → p.Storable text) {db : Database}
    (hrows : ∀ row ∈ db.feeDataPoints, ∃ p, good p ∧ row = FeeRow.ofPoint text p)
    (restart : Restart) : ∀ p ∈ readAtStart text restart db, good p := by
  intro p hp
  unfold readAtStart at hp
  split_ifs at hp
  · obtain ⟨row, hrow, -, hpoint⟩ := Database.mem_fetchSince_iff.1 hp
    obtain ⟨q, hq, rfl⟩ := hrows row hrow
    rw [(hgood q hq).toPoint_ofPoint] at hpoint
    obtain rfl := Option.some.inj hpoint
    exact hq
  · cases hp

theorem good_of_mem_newPoints {tick : PollTick} (hfetched : ∀ p ∈ lives.poller.fetched tick, good p) :
    ∀ p ∈ lives.poller.newPoints s tick, good p :=
  fun p hp => hfetched p (s.store.mem_dropKnown hp).1

theorem rows_crashed (h : Only text good s) {cut : Option (PollTick × ℕ)} {restart : Restart}
    (hfetched : ∀ p ∈ lives.fetchedBy (.crash cut restart), good p) :
    ∀ row ∈ (lives.crashed text s cut).feeDataPoints, ∃ p, good p ∧ row = FeeRow.ofPoint text p := by
  cases cut with
  | none => exact h.rows
  | some writes =>
    obtain ⟨tick, done⟩ := writes
    unfold Lives.crashed
    dsimp only
    split_ifs
    · exact h.rows
    · exact rows_persistUpTo h.rows (good_of_mem_newPoints hfetched) _ _ _

theorem Only.start (hgood : ∀ p, good p → p.Storable text) {db : Database}
    (hrows : ∀ row ∈ db.feeDataPoints, ∃ p, good p ∧ row = FeeRow.ofPoint text p)
    (restart : Restart) : Only text good (lives.start text restart db) := by
  refine ⟨?_, hrows⟩
  intro p hp
  rw [(lives.holds_start text restart db).2] at hp
  have hsuffix := BoundedQueue.pushAll_suffix lives.capacity [] (readAtStart text restart db)
  rw [List.nil_append] at hsuffix
  exact good_of_mem_readAtStart hgood hrows restart p (hsuffix.subset hp)

theorem Only.step (hgood : ∀ p, good p → p.Storable text) (h : Only text good s)
    {event : LifeEvent} (hfetched : ∀ p ∈ lives.fetchedBy event, good p) :
    Only text good (lives.step text s event).1 := by
  cases event with
  | crash cut restart => exact Only.start hgood (rows_crashed h hfetched) restart
  | tick tick =>
    have hnew := good_of_mem_newPoints (s := s) hfetched
    constructor
    · intro p hp
      replace hp : p ∈ (lives.poller.pollOnce text s tick).1.store.data := hp
      rw [Poller.pollOnce_store, FeeHistoryStore.foldl_push_data] at hp
      rcases List.mem_append.1 ((BoundedQueue.pushAll_suffix _ _ _).subset hp) with hold | hp
      · exact h.store p hold
      · exact hnew p hp
    · show ∀ row ∈ (lives.poller.pollOnce text s tick).1.database.feeDataPoints, _
      rw [Poller.pollOnce_database]
      split_ifs
      · exact h.rows
      · rw [Poller.persist_eq_persistUpTo]
        exact rows_persistUpTo h.rows hnew _ _ _

end Only

theorem pushAll_nil_eq_drop {α : Type*} {capacity : ℕ} (hpos : 0 < capacity) (xs : List α) :
    BoundedQueue.pushAll capacity [] xs = xs.drop (xs.length - capacity) := by
  have hroom : BoundedQueue.room capacity 0 = capacity := by
    unfold BoundedQueue.room
    omega
  rw [BoundedQueue.pushAll_eq_drop, List.nil_append, List.length_nil, hroom, Nat.zero_add]

section First

variable {restart : Restart} {database : Database} (hempty : database.feeDataPoints = [])
include hempty

theorem holds_first (lives : Lives) : lives.Holds (lives.start text restart database) [] := by
  have hread : readAtStart text restart database = [] := by
    unfold readAtStart Database.fetchSince
    rw [hempty]
    simp
  have hfirst := lives.holds_start text restart database
  rwa [hread] at hfirst

theorem sound_run (hpos : 0 < lives.capacity) (events : List LifeEvent) :
    lives.Sound (final (lives.step text) (lives.start text restart database) events) := by
  have hrows : database.DistinctHashes := by
    unfold Database.DistinctHashes
    rw [hempty]
    exact List.nodup_nil
  exact final_induction (lives.step text) (P := lives.Sound) (Sound.start hpos hrows restart)
    fun s event _ h => h.step hpos event

theorem only_first {good : FeeDataPoint → Prop} (hgood : ∀ p, good p → p.Storable text) :
    Only text good (lives.start text restart database) := by
  refine Only.start hgood ?_ restart
  rw [hempty]
  exact nofun

end First

/-- From the first start on an empty table, over all ticks and crashes: the hashes differ in the store
and in the table; a transaction is found exactly when it is one of the last points that the process
has been given since it came up; and what is answered is a point that some tick has fetched. -/
theorem lookups_exact (lives : Lives) (text : Rfc3339) (hpos : 0 < lives.capacity) (restart : Restart)
    (database : Database) (hempty : database.feeDataPoints = []) (events : List LifeEvent)
    (hstorable : ∀ event ∈ events, ∀ p ∈ lives.fetchedBy event, p.Storable text) (hash : String)
    (response : TransactionFeeResponse) :
    let first := lives.start text restart database
    let s := final (lives.step text) first events
    let given := lives.given text first [] events
    lives.Sound s ∧
      (transactionFeeLookup s.store hash = .ok response ↔ isTxHash hash = true ∧
        ∃ p ∈ given.drop (given.length - lives.capacity),
          p.transactionHash = hash ∧ response = .ofPoint p) ∧
      (transactionFeeLookup s.store hash = .ok response →
        ∃ event ∈ events, ∃ p ∈ lives.fetchedBy event,
          p.transactionHash = hash ∧ response = .ofPoint p) := by
  intro first s given
  have hsound : lives.Sound s := sound_run hempty hpos events
  have hholds : lives.Holds s given := lives.store_eq text (holds_first hempty lives) events
  have hlookup := @transactionFeeLookup_eq_ok_iff s.store hsound.distinctHashes hash response
  refine ⟨hsound, ?_, ?_⟩
  · rw [hlookup, hholds.2, pushAll_nil_eq_drop hpos]
  · intro hok
    obtain ⟨-, p, hp, hhash, hresponse⟩ := hlookup.1 hok
    have honly : Only text (fun p => ∃ event ∈ events, p ∈ lives.fetchedBy event) s := by
      have hgood : ∀ p, (∃ event ∈ events, p ∈ lives.fetchedBy event) → p.Storable text :=
        fun p ⟨event, hevent, hp⟩ => hstorable event hevent p hp
      exact final_induction (lives.step text) (P := Only text _) (only_first hempty hgood)
        fun s event hevent h => h.step hgood fun p hp => ⟨event, hevent, hp⟩
    obtain ⟨event, hevent, hfetched⟩ := honly.store p hp
    exact ⟨event, hevent, p, hfetched, hhash, hresponse⟩

/-! ## What was inserted is found after a restart -/

/-- The insert of the tick of an event is made, with a point among those inserted. -/
def Inserts (lives : Lives) (s : PollState) (p : FeeDataPoint) : LifeEvent → Prop
  | .tick tick => tick.insertError = none ∧ p ∈ lives.poller.newPoints s tick
  | .crash (some (tick, done)) _ =>
    done ≠ 0 ∧ tick.insertError = none ∧ p ∈ lives.poller.newPoints s tick
  | .crash none _ => False

theorem mem_fetchedBy_of_inserts {s : PollState} {p : FeeDataPoint} {event : LifeEvent}
    (h : lives.Inserts s p event) : p ∈ lives.fetchedBy event := by
  cases event with
  | tick tick => exact (s.store.mem_dropKnown h.2).1
  | crash cut restart =>
    cases cut with
    | none => exact h.elim
    | some writes => exact (s.store.mem_dropKnown h.2.2).1

/-- The tick of an event. -/
def tickOf : LifeEvent → Option PollTick
  | .tick tick => some tick
  | .crash cut _ => cut.map (·.1)

/-- What is in the table and what is inserted is there afterwards, if it is not deleted. -/
theorem mem_rows_persistUpTo {db : Database} {p : FeeDataPoint} (hrepo : lives.poller.hasRepository)
    {tick : PollTick} {points : List FeeDataPoint} {done : ℕ}
    (hkept : lives.poller.prunes text tick (text.toRfc3339 p.timestamp) = false)
    (hp : FeeRow.ofPoint text p ∈ db.feeDataPoints ∨
      done ≠ 0 ∧ tick.insertError = none ∧ p ∈ points ∧
        ∀ row ∈ db.feeDataPoints, row.transactionHash = p.transactionHash →
          row = FeeRow.ofPoint text p)
    (hsame : ∀ q ∈ points, q.transactionHash = p.transactionHash → q = p) :
    FeeRow.ofPoint text p ∈ (lives.poller.persistUpTo text tick points done db).feeDataPoints := by
  rw [Poller.persistUpTo_feeDataPoints, List.mem_filter]
  have htimestamp : (FeeRow.ofPoint text p).timestamp = text.toRfc3339 p.timestamp := rfl
  refine ⟨?_, by rw [htimestamp, hkept, Bool.and_false]; rfl⟩
  have hmono : ∀ row ∈ db.feeDataPoints,
      row ∈ (lives.poller.inserted text tick points db).feeDataPoints := by
    intro row hrow
    unfold Poller.inserted
    split_ifs
    · rw [Database.insertFeePoints_feeDataPoints]
      exact List.mem_append_left _ hrow
    · exact hrow
  rcases hp with hold | ⟨hdone, hinsert, hp, hrows⟩
  · split_ifs
    · exact hold
    · exact hmono _ hold
  · rw [if_neg hdone]
    by_cases hhas : db.HasPoint p.transactionHash
    · obtain ⟨row, hrow, hhash⟩ := hhas
      exact hrows row hrow hhash ▸ hmono row hrow
    · have hhash : p.transactionHash ∈ (db.insertedPoints points).map (·.transactionHash) := by
        unfold Database.insertedPoints
        rw [FirstByKey.mem_map_firstByKey_iff, List.mem_toFinset]
        refine ⟨fun hold => hhas ?_, List.mem_map_of_mem hp⟩
        obtain ⟨row, hrow, hkey⟩ := List.mem_map.1 hold
        exact ⟨row, hrow, hkey⟩
      obtain ⟨q, hq, hkey⟩ := List.mem_map.1 hhash
      have hqp : q = p := hsame q ((FirstByKey.firstByKey_sublist _ _ _).subset hq) hkey
      subst hqp
      unfold Poller.inserted
      rw [hrepo, hinsert]
      simp only [Option.isNone_none, Bool.and_self, if_true]
      rw [Database.insertFeePoints_feeDataPoints]
      exact List.mem_append_right _ (List.mem_map_of_mem hq)

/-- Points are told apart by their hashes. -/
def ByHash (good : FeeDataPoint → Prop) : Prop :=
  ∀ p q, good p → good q → p.transactionHash = q.transactionHash → p = q

section Kept

variable {good : FeeDataPoint → Prop} {s : PollState} {p : FeeDataPoint}

theorem Only.eq_ofPoint (h : Only text good s) (hby : ByHash good) (hp : good p) :
    ∀ row ∈ s.database.feeDataPoints, row.transactionHash = p.transactionHash →
      row = FeeRow.ofPoint text p := by
  intro row hrow hhash
  obtain ⟨q, hq, rfl⟩ := h.rows row hrow
  rw [hby q p hq hp hhash]

/-- The tables after the writes of a tick, however many. -/
theorem mem_rows_writes (hrepo : lives.poller.hasRepository) (h : Only text good s)
    (hby : ByHash good) (hp : good p) {tick : PollTick} {done : ℕ}
    (hfetched : ∀ q ∈ lives.poller.fetched tick, good q)
    (hkept : lives.poller.prunes text tick (text.toRfc3339 p.timestamp) = false)
    (hrow : FeeRow.ofPoint text p ∈ s.database.feeDataPoints ∨
      done ≠ 0 ∧ tick.insertError = none ∧ p ∈ lives.poller.newPoints s tick) :
    FeeRow.ofPoint text p ∈
      (lives.poller.persistUpTo text tick (lives.poller.newPoints s tick) done
        s.database).feeDataPoints := by
  refine mem_rows_persistUpTo hrepo hkept ?_ fun q hq hhash =>
    hby q p (hfetched q (s.store.mem_dropKnown hq).1) hp hhash
  rcases hrow with hrow | ⟨hdone, hinsert, hmem⟩
  · exact .inl hrow
  · exact .inr ⟨hdone, hinsert, hmem, h.eq_ofPoint hby hp⟩

theorem mem_rows_crashed (hrepo : lives.poller.hasRepository) (h : Only text good s)
    (hby : ByHash good) (hp : good p) {cut : Option (PollTick × ℕ)} {restart : Restart}
    (hfetched : ∀ q ∈ lives.fetchedBy (.crash cut restart), good q)
    (hkept : ∀ tick ∈ tickOf (.crash cut restart),
      lives.poller.prunes text tick (text.toRfc3339 p.timestamp) = false)
    (hrow : FeeRow.ofPoint text p ∈ s.database.feeDataPoints ∨
      lives.Inserts s p (.crash cut restart)) :
    FeeRow.ofPoint text p ∈ (lives.crashed text s cut).feeDataPoints := by
  cases cut with
  | none =>
    rcases hrow with hrow | hinserts
    · exact hrow
    · exact hinserts.elim
  | some writes =>
    obtain ⟨tick, done⟩ := writes
    unfold Lives.crashed
    dsimp only
    split_ifs with hnil
    · rcases hrow with hrow | ⟨-, -, hmem⟩
      · exact hrow
      · rw [hnil] at hmem
        cases hmem
    · exact mem_rows_writes hrepo h hby hp hfetched (hkept tick rfl) hrow

theorem mem_rows_step (hrepo : lives.poller.hasRepository) (h : Only text good s)
    (hby : ByHash good) (hp : good p) {event : LifeEvent}
    (hfetched : ∀ q ∈ lives.fetchedBy event, good q)
    (hkept : ∀ tick ∈ tickOf event,
      lives.poller.prunes text tick (text.toRfc3339 p.timestamp) = false)
    (hrow : FeeRow.ofPoint text p ∈ s.database.feeDataPoints ∨ lives.Inserts s p event) :
    FeeRow.ofPoint text p ∈ (lives.step text s event).1.database.feeDataPoints := by
  cases event with
  | crash cut restart => exact mem_rows_crashed hrepo h hby hp hfetched hkept hrow
  | tick tick =>
    show FeeRow.ofPoint text p ∈ (lives.poller.pollOnce text s tick).1.database.feeDataPoints
    rw [Poller.pollOnce_database]
    split_ifs with hnil
    · rcases hrow with hrow | ⟨-, hmem⟩
      · exact hrow
      · rw [hnil] at hmem
        cases hmem
    · rw [Poller.persist_eq_persistUpTo]
      refine mem_rows_writes hrepo h hby hp hfetched (hkept tick rfl) ?_
      exact hrow.imp_right fun ⟨hinsert, hmem⟩ => ⟨four_ne_zero, hinsert, hmem⟩

/-- Over a run: what is in the table at the start or is inserted in it is there at the end. -/
theorem mem_rows_run (hrepo : lives.poller.hasRepository)
    (hgood : ∀ p, good p → p.Storable text) (hby : ByHash good) (hp : good p)
    {events : List LifeEvent} (h : Only text good s)
    (hfetched : ∀ event ∈ events, ∀ q ∈ lives.fetchedBy event, good q)
    (hkept : ∀ event ∈ events, ∀ tick ∈ tickOf event,
      lives.poller.prunes text tick (text.toRfc3339 p.timestamp) = false)
    (hrow : FeeRow.ofPoint text p ∈ s.database.feeDataPoints ∨
      ∃ k event, events[k]? = some event ∧
        lives.Inserts (final (lives.step text) s (events.take k)) p event) :
    FeeRow.ofPoint text p ∈
      (final (lives.step text) s events).database.feeDataPoints := by
  induction events generalizing s with
  | nil =>
    rcases hrow with hrow | ⟨k, event, hevent, -⟩
    · exact hrow
    · cases hevent
  | cons first events ih =>
    rw [List.forall_mem_cons] at hfetched hkept
    have hstep := mem_rows_step hrepo h hby hp hfetched.1 hkept.1
    refine ih (h.step hgood hfetched.1) hfetched.2 hkept.2 ?_
    rcases hrow with hrow | ⟨k, event, hevent, hinserts⟩
    · exact .inl (hstep (.inl hrow))
    · cases k with
      | zero =>
        obtain rfl := Option.some.inj hevent
        exact .inl (hstep (.inr hinserts))
      | succ k => exact .inr ⟨k, event, hevent, hinserts⟩

end Kept

theorem given_append (lives : Lives) (text : Rfc3339) (s : PollState) (before : List FeeDataPoint)
    (events later : List LifeEvent) :
    lives.given text s before (events ++ later) =
      lives.given text (final (lives.step text) s events) (lives.given text s before events)
        later := by
  induction events generalizing s before with
  | nil => rfl
  | cons event events ih =>
    cases event with
    | tick tick => exact ih _ _
    | crash cut restart => exact ih _ _

/-- Ticks only add to what the process has been given. -/
theorem prefix_given_ticks (lives : Lives) (text : Rfc3339) (s : PollState)
    (before : List FeeDataPoint) (ticks : List PollTick) :
    before <+: lives.given text s before (ticks.map .tick) := by
  induction ticks generalizing s before with
  | nil => exact List.prefix_refl _
  | cons tick ticks ih => exact (List.prefix_append _ _).trans (ih _ _)

/-- A cutoff of a tick that is not after a start deletes nothing that is less than a day old then. -/
theorem not_prunes_of_young {poller : Poller} {instants : DateTime → Prop}
    (hdays : 1 ≤ poller.storageRetentionDays)
    (hsmall : (poller.storageRetentionDays : ℤ) ≤ i64Max) (horder : text.OrdersLike instants)
    {tick : PollTick} {restart : Restart} (hnow : tick.now ≤ restart.now)
    (hcutoff : ∀ cutoff, poller.retentionCutoff tick.now = .ok cutoff → instants cutoff)
    {time : DateTime} (htime : instants time) (hyoung : restart.since ≤ time) :
    poller.prunes text tick (text.toRfc3339 time) = false := by
  apply poller.not_prunes_of_withinRetention
  intro cutoff heq hlt
  have hbefore := (horder time cutoff htime (hcutoff cutoff heq)).1 hlt
  have hday := Poller.retentionCutoff_le hdays hsmall heq
  have hsince := DateTime.eq_of_trySub restart.since_eq
  have hle : cutoff ≤ restart.since := by
    rw [hsince]
    exact hday.trans (Int.sub_le_sub_right hnow _)
  exact absurd (hbefore.trans_le hle) (not_lt.2 hyoung)

/-- A point whose insert was made in some life, in a tick that is cut off too, is found after a restart
that reads the table when the point is not more than a day old: until more points have been given to
the process than there is room for.  The ticks are not after the restart, the retention is at least a
day, the texts order like the instants and are read back, and fetched points are told apart by their
hashes. -/
theorem inserted_found_after_restart (lives : Lives) {text : Rfc3339} {instants : DateTime → Prop}
    (hpos : 0 < lives.capacity) (hrepo : lives.poller.hasRepository = true)
    (hdays : 1 ≤ lives.poller.storageRetentionDays)
    (hsmall : (lives.poller.storageRetentionDays : ℤ) ≤ i64Max) (horder : text.OrdersLike instants)
    (initial : Restart) {database : Database} (hempty : database.feeDataPoints = [])
    {events : List LifeEvent} {cut : Option (PollTick × ℕ)} {restart : Restart}
    (hread : restart.fetchError = none) (hinstant : instants restart.since)
    (hpoints : ∀ event ∈ events ++ [LifeEvent.crash cut restart], ∀ p ∈ lives.fetchedBy event,
      instants p.timestamp ∧ p.Storable text)
    (hby : ByHash fun p => ∃ event ∈ events ++ [LifeEvent.crash cut restart], p ∈ lives.fetchedBy event)
    (hticks : ∀ event ∈ events ++ [LifeEvent.crash cut restart], ∀ tick ∈ tickOf event,
      tick.now ≤ restart.now ∧
        ∀ cutoff, lives.poller.retentionCutoff tick.now = .ok cutoff → instants cutoff)
    {k : ℕ} {event : LifeEvent} (hevent : (events ++ [LifeEvent.crash cut restart])[k]? = some event)
    {p : FeeDataPoint}
    (hinserts : lives.Inserts (final (lives.step text) (lives.start text initial database)
      ((events ++ [LifeEvent.crash cut restart]).take k)) p event)
    (hyoung : restart.since ≤ p.timestamp) (hash : isTxHash p.transactionHash = true)
    (later : List PollTick)
    (hroom : (lives.given text (lives.start text initial database) []
      (events ++ .crash cut restart :: later.map .tick)).length ≤ lives.capacity) :
    transactionFeeLookup (final (lives.step text) (lives.start text initial database)
        (events ++ .crash cut restart :: later.map .tick)).store p.transactionHash =
      .ok (.ofPoint p) := by
  have hgood : ∀ p, (∃ event ∈ events ++ [LifeEvent.crash cut restart],
      p ∈ lives.fetchedBy event) → p.Storable text :=
    fun p ⟨event, hevent, hp⟩ => (hpoints event hevent p hp).2
  have hmem := List.mem_of_getElem? hevent
  have hfetched := mem_fetchedBy_of_inserts hinserts
  obtain ⟨htime, hstorable⟩ := hpoints event hmem p hfetched
  have hfirst : Only text _ (lives.start text initial database) := only_first hempty hgood
  have hrow := mem_rows_run hrepo hgood hby ⟨event, hmem, hfetched⟩ hfirst
    (fun event hevent q hq => ⟨event, hevent, hq⟩)
    (fun event hevent tick htick => by
      obtain ⟨hnow, hcutoff⟩ := hticks event hevent tick htick
      exact not_prunes_of_young hdays hsmall horder hnow hcutoff htime hyoung)
    (.inr ⟨k, event, hevent, hinserts⟩)
  -- the start reads the row
  rw [final_append] at hrow
  have hstart : p ∈ readAtStart text restart (lives.crashed text
      (final (lives.step text) (lives.start text initial database) events) cut) := by
    unfold readAtStart
    rw [hread, Option.isNone_none, if_pos rfl, Database.mem_fetchSince_iff]
    refine ⟨FeeRow.ofPoint text p, hrow, ?_, hstorable.toPoint_ofPoint⟩
    show ¬ text.toRfc3339 p.timestamp < text.toRfc3339 restart.since
    rw [horder _ _ htime hinstant]
    exact not_lt.2 hyoung
  have hgiven : p ∈ lives.given text (lives.start text initial database) []
      (events ++ .crash cut restart :: later.map .tick) := by
    rw [given_append]
    exact (prefix_given_ticks lives text _ _ later).subset hstart
  have hsound : lives.Sound (final (lives.step text) (lives.start text initial database)
      (events ++ .crash cut restart :: later.map .tick)) := sound_run hempty hpos _
  have hempty' : lives.Holds (lives.start text initial database) [] := holds_first hempty lives
  have hholds := lives.store_eq text hempty' (events ++ .crash cut restart :: later.map .tick)
  rw [transactionFeeLookup_eq_ok_iff hsound.distinctHashes]
  refine ⟨hash, p, ?_, rfl, rfl⟩
  rw [hholds.2, BoundedQueue.pushAll_eq_append _ (by rwa [List.length_nil, Nat.zero_add])]
  exact hgiven

/-! ## The fixtures of the lookups -/

/-- A point with a hash of the right form. -/
def hexPoint : FeeDataPoint where
  feeAmount := 100
  timestamp := seconds 1736851620
  transactionHash := "0123456789abcdef0123456789abcdef0123456789abcdef0123456789abcdef"
  ledgerSequence := 1

theorem fetched_tickFetching (points : List FeeDataPoint) :
    storingLives.poller.fetched (tickFetching points) = points := rfl

theorem hexPoint_storable : hexPoint.Storable Database.printedText :=
  ⟨by decide, by decide, by decide⟩

/-- A tick fetches a point, and the process is started again. -/
theorem lookups_exact_one_point :
    let events : List LifeEvent := [.tick (tickFetching [hexPoint]), .crash none restartReading]
    let first := storingLives.start Database.printedText restartReading noTables
    let s := final (storingLives.step Database.printedText) first events
    let given := storingLives.given Database.printedText first [] events
    let response := TransactionFeeResponse.ofPoint hexPoint
    storingLives.Sound s ∧
      (transactionFeeLookup s.store hexPoint.transactionHash = .ok response ↔
        isTxHash hexPoint.transactionHash = true ∧
        ∃ p ∈ given.drop (given.length - storingLives.capacity),
          p.transactionHash = hexPoint.transactionHash ∧ response = .ofPoint p) ∧
      (transactionFeeLookup s.store hexPoint.transactionHash = .ok response →
        ∃ event ∈ events, ∃ p ∈ storingLives.fetchedBy event,
          p.transactionHash = hexPoint.transactionHash ∧ response = .ofPoint p) := by
  intro events first s given response
  refine lookups_exact storingLives Database.printedText (by decide) restartReading noTables rfl events
    ?_ hexPoint.transactionHash response
  intro event hevent p hp
  rcases List.mem_cons.1 hevent with rfl | hevent
  · rw [show storingLives.fetchedBy (.tick (tickFetching [hexPoint])) = [hexPoint] from
      fetched_tickFetching [hexPoint], List.mem_singleton] at hp
    rw [hp]
    exact hexPoint_storable
  · rw [List.mem_singleton.1 hevent] at hp
    cases hp

theorem orders_printedText : Database.printedText.OrdersLike InFourDigitYears :=
  fun _ _ ht ht' => rfc3339Text_lt_iff ht ht'

/-- A process that ends after the insert of its first tick. -/
def cutTick : LifeEvent := .crash (some (tickFetching [hexPoint], 1)) restartReading

theorem fetchedBy_cutTick : storingLives.fetchedBy cutTick = [hexPoint] :=
  fetched_tickFetching [hexPoint]

theorem inserts_cutTick {s : PollState} (h : s.store.data = []) :
    storingLives.Inserts s hexPoint cutTick := by
  refine ⟨one_ne_zero, rfl, ?_⟩
  unfold Poller.newPoints
  rw [fetched_tickFetching, FeeHistoryStore.dropKnown_eq, FirstByKey.firstByKey_eq_filter]
  · simp [FeeHistoryStore.getByHash, h]
  · exact (List.nodup_singleton _).sublist (List.filter_sublist.map _)

/-- The process ends after the insert of its first tick, and the point is found after the restart. -/
theorem inserted_found_after_restart_cut_tick :
    transactionFeeLookup (final (storingLives.step Database.printedText)
        (storingLives.start Database.printedText restartReading noTables)
        ([] ++ cutTick :: [].map .tick)).store hexPoint.transactionHash =
      .ok (.ofPoint hexPoint) := by
  have hevents : ∀ event ∈ [] ++ [cutTick], event = cutTick :=
    fun event hevent => List.mem_singleton.1 hevent
  have hfetched : ∀ event ∈ [] ++ [cutTick], ∀ p ∈ storingLives.fetchedBy event, p = hexPoint := by
    intro event hevent p hp
    rw [hevents event hevent, fetchedBy_cutTick] at hp
    exact List.mem_singleton.1 hp
  have hstart : (storingLives.start Database.printedText restartReading noTables).store.data = [] :=
    rfl
  have hinserts : storingLives.Inserts (final (storingLives.step Database.printedText)
      (storingLives.start Database.printedText restartReading noTables) (([] ++ [cutTick]).take 0))
      hexPoint cutTick := inserts_cutTick hstart
  have hat : ([] ++ [cutTick])[0]? = some cutTick := rfl
  refine inserted_found_after_restart storingLives (by decide) rfl (by decide) (by decide)
    orders_printedText restartReading rfl rfl (by decide) ?_ ?_ ?_ hat hinserts (by decide)
    (by decide +kernel) [] ?_
  · intro event hevent p hp
    rw [hfetched event hevent p hp]
    exact ⟨by decide, hexPoint_storable⟩
  · rintro p q ⟨event, hevent, hp⟩ ⟨event', hevent', hq⟩ -
    rw [hfetched event hevent p hp, hfetched event' hevent' q hq]
  · intro event hevent tick htick
    rw [hevents event hevent] at htick
    obtain rfl := Option.some.inj htick
    refine ⟨le_refl _, fun cutoff hcutoff => ?_⟩
    have hweek : storingPoller.retentionCutoff (tickFetching [hexPoint]).now =
        .ok (seconds 1736246820) := by decide
    obtain rfl := Except.ok.inj (hweek.symm.trans hcutoff)
    decide
  · decide +kernel

end Lives

end StellarFeeTracker
