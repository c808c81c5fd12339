import Iceoryx.Lib.Words

namespace Iceoryx.Hoofs

open Lib.Words

/-- What a signed or an unsigned integer of 64 bits can hold. -/
def Integer64 (k : Int) : Prop := -2 ^ 63 ≤ k ∧ k < 2 ^ 64

instance (k : Int) : Decidable (Integer64 k) := inferInstanceAs (Decidable (_ ∧ _))

structure Duration where
  seconds : Nat
  nanoseconds : Nat
  deriving DecidableEq, Repr

namespace Duration

def secsPerMinute : Nat := 60
def secsPerHour : Nat := 3600
def hoursPerDay : Nat := 24
def millisecsPerSec : Nat := 1000
def microsecsPerSec : Nat := millisecsPerSec * 1000
def nanosecsPerMicrosec : Nat := 1000
def nanosecsPerMillisec : Nat := nanosecsPerMicrosec * 1000
def nanosecsPerSec : Nat := nanosecsPerMillisec * 1000

def createDuration (seconds nanoseconds : Nat) : Duration :=
  if nanoseconds ≥ nanosecsPerSec then
    let additionalSeconds := nanoseconds / nanosecsPerSec
    if uint64Max - additionalSeconds < seconds then
      ⟨uint64Max, nanosecsPerSec - 1⟩
    else
      ⟨toUint64 (seconds + additionalSeconds), nanoseconds % nanosecsPerSec⟩
  else
    ⟨seconds, nanoseconds⟩

def max : Duration := createDuration uint64Max (nanosecsPerSec - 1)

def zero : Duration := createDuration 0 0

def positiveValueOrClampToZero (value : Int) : Nat :=
  if value < 0 then 0 else (value % 2 ^ 64).toNat

/-- The conversions from units of at most a second, of which `perSec` make a second and
which take `nanosecsPerUnit` each. -/
def fromFraction (perSec nanosecsPerUnit : Nat) (value : Int) : Duration :=
  let clampedValue := positiveValueOrClampToZero value
  let seconds := toUint64 (clampedValue / perSec)
  let nanoseconds := toUint32 (toUint64 (clampedValue % perSec * nanosecsPerUnit))
  createDuration seconds nanoseconds

def fromNanoseconds : Int → Duration := fromFraction nanosecsPerSec 1
def fromMicroseconds : Int → Duration := fromFraction microsecsPerSec nanosecsPerMicrosec
def fromMilliseconds : Int → Duration := fromFraction millisecsPerSec nanosecsPerMillisec

def fromMultiple (secsPerUnit : Nat) (value : Int) : Duration :=
  let clampedValue := positiveValueOrClampToZero value
  let maxBeforeOverflow := uint64Max / secsPerUnit
  if clampedValue > maxBeforeOverflow then max
  else createDuration (toUint64 (clampedValue * secsPerUnit)) 0

def fromSeconds : Int → Duration := fromMultiple 1
def fromMinutes : Int → Duration := fromMultiple secsPerMinute
def fromHours : Int → Duration := fromMultiple secsPerHour
def fromDays : Int → Duration := fromMultiple (hoursPerDay * secsPerHour)

def ofTimeval (tvSec tvUsec : Int) : Duration :=
  createDuration (tvSec % 2 ^ 64).toNat
    (toUint32 ((tvUsec % 2 ^ 32).toNat * nanosecsPerMicrosec))

def ofTimespec (tvSec tvNsec : Int) : Duration :=
  createDuration (tvSec % 2 ^ 64).toNat (tvNsec % 2 ^ 32).toNat

def less (d rhs : Duration) : Bool :=
  d.seconds < rhs.seconds || (d.seconds = rhs.seconds && d.nanoseconds < rhs.nanoseconds)

def greater (d rhs : Duration) : Bool :=
  d.seconds > rhs.seconds || (d.seconds = rhs.seconds && d.nanoseconds > rhs.nanoseconds)

def toFraction (perSec nanosecsPerUnit : Nat) (d : Duration) : Nat :=
  let maxSecondsBeforeOverflow := uint64Max / perSec
  let maxNanosecondsBeforeOverflow := toUint32 (toUint64 (uint64Max % perSec * nanosecsPerUnit))
  let maxDurationBeforeOverflow :=
    createDuration maxSecondsBeforeOverflow maxNanosecondsBeforeOverflow
  if d.greater maxDurationBeforeOverflow then uint64Max
  else toUint64 (d.seconds * perSec + d.nanoseconds / nanosecsPerUnit)

def toNanoseconds : Duration → Nat := toFraction nanosecsPerSec 1
def toMicroseconds : Duration → Nat := toFraction microsecsPerSec nanosecsPerMicrosec
def toMilliseconds : Duration → Nat := toFraction millisecsPerSec nanosecsPerMillisec
def toSeconds (d : Duration) : Nat := d.seconds
def toMinutes (d : Duration) : Nat := d.seconds / secsPerMinute
def toHours (d : Duration) : Nat := d.seconds / secsPerHour
def toDays (d : Duration) : Nat := d.seconds / (hoursPerDay * secsPerHour)

def add (d rhs : Duration) : Duration :=
  let seconds := toUint64 (d.seconds + rhs.seconds)
  let nanoseconds := toUint32 (d.nanoseconds + rhs.nanoseconds)
  let sum :=
    if nanoseconds ≥ nanosecsPerSec then
      createDuration (toUint64 (seconds + 1)) (nanoseconds - nanosecsPerSec)
    else
      createDuration seconds nanoseconds
  if sum.less d then max else sum

/-- `operator-`; its subtractions are made where they do not fall below zero. -/
def sub (d rhs : Duration) : Duration :=
  if d.less rhs then zero
  else
    let seconds := d.seconds - rhs.seconds
    if d.nanoseconds ≥ rhs.nanoseconds then
      createDuration seconds (d.nanoseconds - rhs.nanoseconds)
    else
      createDuration (seconds - 1)
        (toUint32 (nanosecsPerSec - rhs.nanoseconds + d.nanoseconds))

def leastCommonMultiple : Nat := 8388608000000000
def oneFullBlockOfSecondsOnly : Nat := leastCommonMultiple / 2 ^ 32
def secondsPerFullBlock : Nat := leastCommonMultiple / nanosecsPerSec

/-- `multiplyWith` for the integer types; `multiplicator` is already cast to `Seconds_t`. -/
def multiplyWith (d : Duration) (multiplicator : Nat) : Duration :=
  let maxBeforeOverflow := uint64Max / multiplicator
  if d.seconds > maxBeforeOverflow then max
  else
    let durationFromSeconds := createDuration (toUint64 (d.seconds * multiplicator)) 0
    if d.nanoseconds ≤ maxBeforeOverflow then
      durationFromSeconds.add (fromNanoseconds (toUint64 (d.nanoseconds * multiplicator)))
    else
      let multiplicatorLow := toUint32 multiplicator
      let durationFromNanosecondsLow :=
        fromNanoseconds (toUint64 (d.nanoseconds * multiplicatorLow))
      let multiplicatorHigh := toUint32 (multiplicator / 2 ^ 32)
      let nanosecondsFromHigh := toUint64 (d.nanoseconds * multiplicatorHigh)
      let fullBlocksOfSecondsOnly := nanosecondsFromHigh / oneFullBlockOfSecondsOnly
      let remainingBlock := nanosecondsFromHigh % oneFullBlockOfSecondsOnly
      let durationFromNanosecondsHigh :=
        (createDuration (toUint64 (fullBlocksOfSecondsOnly * secondsPerFullBlock)) 0).add
          (fromNanoseconds (toUint64 (remainingBlock * 2 ^ 32)))
      (durationFromSeconds.add durationFromNanosecondsLow).add durationFromNanosecondsHigh

def mul (d : Duration) (rhs : Int) : Duration :=
  if rhs ≤ 0 ∨ d = zero then zero else d.multiplyWith (rhs % 2 ^ 64).toNat

structure Valid (d : Duration) : Prop where
  seconds : d.seconds < 2 ^ 64
  nanoseconds : d.nanoseconds < nanosecsPerSec

def value (d : Duration) : Nat := twoDigits nanosecsPerSec d.seconds d.nanoseconds

def clamp (nanosecs : Int) : Nat := min nanosecs.toNat max.value

theorem nanosecsPerSec_eq : nanosecsPerSec = 1000000000 := rfl

theorem max_value : max.value = 18446744073709551616 * 1000000000 - 1 := by decide

theorem valid_max : max.Valid := ⟨by decide, by decide⟩

theorem valid_zero : zero.Valid := ⟨by decide, by decide⟩

variable {d rhs : Duration}

theorem Valid.value_le (h : d.Valid) : d.value ≤ max.value := by
  have hs := h.seconds
  have hn := h.nanoseconds
  rw [max_value, value, twoDigits]
  rw [nanosecsPerSec_eq] at hn ⊢
  omega

theorem less_iff (h : d.Valid) (hrhs : rhs.Valid) : d.less rhs = true ↔ d.value < rhs.value := by
  rw [value, value, twoDigits_lt_iff h.nanoseconds hrhs.nanoseconds]
  simp [less]

theorem greater_iff (h : d.Valid) (hrhs : rhs.Valid) :
    d.greater rhs = true ↔ rhs.value < d.value := by
  rw [value, value, twoDigits_lt_iff hrhs.nanoseconds h.nanoseconds]
  simp [greater, @eq_comm Nat rhs.seconds]

theorem createDuration_spec {seconds nanoseconds : Nat} (hs : seconds < 2 ^ 64)
    (hn : nanoseconds < 2 ^ 32) :
    (createDuration seconds nanoseconds).Valid ∧
      (createDuration seconds nanoseconds).value =
        min (twoDigits nanosecsPerSec seconds nanoseconds) max.value := by
  rw [max_value]
  unfold createDuration
  split
  next hge =>
    simp only
    split
    next hover =>
      refine ⟨⟨by decide, by decide⟩, ?_⟩
      simp only [uint64Max, nanosecsPerSec_eq, value, twoDigits] at hover hge ⊢
      omega
    next hroom =>
      simp only [uint64Max, nanosecsPerSec_eq] at hroom
      rw [toUint64_of_lt (by rw [nanosecsPerSec_eq]; omega)]
      refine ⟨⟨?_, Nat.mod_lt _ (by decide)⟩, ?_⟩
      · simp only [nanosecsPerSec_eq]
        omega
      · simp only [value, twoDigits, nanosecsPerSec_eq]
        omega
  next hlt =>
    have hlt : nanoseconds < nanosecsPerSec := Nat.not_le.mp hlt
    refine ⟨⟨hs, hlt⟩, ?_⟩
    simp only [nanosecsPerSec_eq, value, twoDigits] at hlt ⊢
    omega

theorem createDuration_of_valid {seconds nanoseconds : Nat} (hn : nanoseconds < nanosecsPerSec) :
    createDuration seconds nanoseconds = ⟨seconds, nanoseconds⟩ :=
  if_neg (Nat.not_le.mpr hn)

theorem positiveValueOrClampToZero_eq {k : Int} (hk : Integer64 k) :
    positiveValueOrClampToZero k = k.toNat := by
  obtain ⟨hlow, hhigh⟩ := hk
  unfold positiveValueOrClampToZero
  split
  · omega
  · rw [Int.emod_eq_of_lt (by omega) hhigh]

theorem integer64_natCast {n : Nat} (h : n < 2 ^ 64) : Integer64 n := ⟨by omega, by omega⟩

theorem fraction_lt {perSec nanosecsPerUnit : Nat}
    (hunit : perSec * nanosecsPerUnit = nanosecsPerSec) (c : Nat) :
    c % perSec * nanosecsPerUnit < nanosecsPerSec := by
  have hpos : 0 < perSec * nanosecsPerUnit := hunit ▸ by decide
  rw [← hunit]
  exact Nat.mul_lt_mul_of_pos_right (Nat.mod_lt c (Nat.pos_of_mul_pos_right hpos))
    (Nat.pos_of_mul_pos_left hpos)

theorem twoDigits_fraction {perSec nanosecsPerUnit : Nat}
    (hunit : perSec * nanosecsPerUnit = nanosecsPerSec) (c : Nat) :
    twoDigits nanosecsPerSec (c / perSec) (c % perSec * nanosecsPerUnit) = c * nanosecsPerUnit := by
  rw [twoDigits, ← hunit, ← Nat.mul_assoc, ← Nat.add_mul, Nat.mul_comm (c / perSec),
    Nat.div_add_mod]

theorem nanosecsPerSec_lt : nanosecsPerSec < 2 ^ 32 := by decide

theorem createDuration_fraction {perSec nanosecsPerUnit c : Nat}
    (hunit : perSec * nanosecsPerUnit = nanosecsPerSec) (hc : c < 2 ^ 64) :
    createDuration (toUint64 (c / perSec)) (toUint32 (toUint64 (c % perSec * nanosecsPerUnit))) =
      ⟨c / perSec, c % perSec * nanosecsPerUnit⟩ := by
  have hfraction := fraction_lt hunit c
  have h32 := hfraction.trans nanosecsPerSec_lt
  rw [toUint64_of_lt (Nat.lt_of_le_of_lt (Nat.div_le_self c perSec) hc),
    toUint64_of_lt (h32.trans (by decide)), toUint32_of_lt h32, createDuration_of_valid hfraction]

theorem fromFraction_spec {perSec nanosecsPerUnit : Nat} {k : Int}
    (hunit : perSec * nanosecsPerUnit = nanosecsPerSec) (hk : Integer64 k) :
    (fromFraction perSec nanosecsPerUnit k).Valid ∧
      (fromFraction perSec nanosecsPerUnit k).value = k.toNat * nanosecsPerUnit := by
  have hc : k.toNat < 2 ^ 64 := by
    have := hk.2
    omega
  have heq : fromFraction perSec nanosecsPerUnit k =
      ⟨k.toNat / perSec, k.toNat % perSec * nanosecsPerUnit⟩ := by
    rw [fromFraction, positiveValueOrClampToZero_eq hk]
    exact createDuration_fraction hunit hc
  rw [heq]
  exact ⟨⟨Nat.lt_of_le_of_lt (Nat.div_le_self _ _) hc, fraction_lt hunit _⟩,
    twoDigits_fraction hunit _⟩

theorem fromMultiple_spec {secsPerUnit : Nat} {k : Int} (hpos : 0 < secsPerUnit)
    (hk : Integer64 k) :
    (fromMultiple secsPerUnit k).Valid ∧
      (fromMultiple secsPerUnit k).value =
        min (k.toNat * (secsPerUnit * nanosecsPerSec)) max.value := by
  unfold fromMultiple
  rw [positiveValueOrClampToZero_eq hk, ← Nat.mul_assoc]
  simp only [gt_iff_lt, ← Nat.not_le, Nat.le_div_iff_mul_le hpos]
  split
  next hover =>
    refine ⟨valid_max, ?_⟩
    rw [max_value, nanosecsPerSec_eq]
    simp only [uint64Max] at hover
    omega
  next hfits =>
    have hfits : k.toNat * secsPerUnit < 2 ^ 64 := by
      simp only [uint64Max] at hfits
      omega
    rw [toUint64_of_lt hfits]
    have hspec := createDuration_spec hfits (show 0 < 2 ^ 32 by decide)
    simpa only [twoDigits, Nat.add_zero] using hspec

theorem toFraction_spec {perSec nanosecsPerUnit : Nat}
    (hunit : perSec * nanosecsPerUnit = nanosecsPerSec) (h : d.Valid) :
    toFraction perSec nanosecsPerUnit d = min (d.value / nanosecsPerUnit) uint64Max := by
  have hpos : 0 < nanosecsPerUnit :=
    Nat.pos_of_mul_pos_left (a := perSec) (hunit ▸ by decide)
  have hdiv : d.value / nanosecsPerUnit = d.seconds * perSec + d.nanoseconds / nanosecsPerUnit := by
    rw [value, twoDigits, ← hunit, ← Nat.mul_assoc, Nat.add_comm,
      Nat.add_mul_div_right _ _ hpos, Nat.add_comm]
  have hlimit := createDuration_fraction (c := uint64Max) hunit (by decide)
  rw [toUint64_of_lt (Nat.lt_of_le_of_lt (Nat.div_le_self _ _) (by decide))] at hlimit
  have hvalid : Valid ⟨uint64Max / perSec, uint64Max % perSec * nanosecsPerUnit⟩ :=
    ⟨Nat.lt_of_le_of_lt (Nat.div_le_self _ _) (by decide), fraction_lt hunit _⟩
  unfold toFraction
  simp only [hlimit, greater_iff h hvalid]
  rw [value, twoDigits_fraction hunit, ← hdiv]
  split
  next hover =>
    rw [min_eq_right]
    exact (Nat.le_div_iff_mul_le hpos).mpr hover.le
  next hfits =>
    have hle : d.value / nanosecsPerUnit ≤ uint64Max := by
      rw [← Nat.mul_div_cancel uint64Max hpos]
      exact Nat.div_le_div_right (Nat.not_lt.mp hfits)
    rw [min_eq_left hle, toUint64_of_lt (Nat.lt_of_le_of_lt hle (by decide))]

theorem fromNanoseconds_spec {n : Nat} (h : n < 2 ^ 64) :
    (fromNanoseconds n).Valid ∧ (fromNanoseconds n).value = n := by
  have hspec := fromFraction_spec (Nat.mul_one nanosecsPerSec) (integer64_natCast h)
  rwa [Int.toNat_natCast, Nat.mul_one] at hspec

theorem createDuration_seconds {seconds : Nat} (h : seconds < 2 ^ 64) :
    (createDuration seconds 0).Valid ∧
      (createDuration seconds 0).value = seconds * nanosecsPerSec := by
  rw [createDuration_of_valid (by decide)]
  exact ⟨⟨h, show 0 < nanosecsPerSec by decide⟩, Nat.add_zero _⟩

theorem add_spec (h : d.Valid) (hrhs : rhs.Valid) :
    (d.add rhs).Valid ∧ (d.add rhs).value = min (d.value + rhs.value) max.value := by
  have hn := h.nanoseconds
  have hn' := hrhs.nanoseconds
  have hmax : max.value + 1 = 2 ^ 64 * nanosecsPerSec := by decide
  -- both ways the digits of the sum are those of the exact sum modulo `2 ^ 64` seconds
  have hsum : ∃ sum : Duration, sum.Valid ∧
      sum.value = (d.value + rhs.value) % (2 ^ 64 * nanosecsPerSec) ∧
      d.add rhs = if sum.less d then max else sum := by
    unfold add
    rw [toUint32_of_lt (by rw [nanosecsPerSec_eq] at hn hn'; omega)]
    refine ⟨_, ?_, ?_, rfl⟩
    all_goals
      split
      all_goals
        rw [createDuration_of_valid (by rw [nanosecsPerSec_eq] at *; omega)]
    · exact ⟨Nat.mod_lt _ (by decide), by simp only; rw [nanosecsPerSec_eq] at *; omega⟩
    · exact ⟨Nat.mod_lt _ (by decide), by simp only; rw [nanosecsPerSec_eq] at *; omega⟩
    all_goals
      simp only [value, twoDigits, toUint64]
      rw [nanosecsPerSec_eq] at *
      omega
  obtain ⟨sum, hvalid, hvalue, hadd⟩ := hsum
  rw [hadd]
  have hd := h.value_le
  have hr := hrhs.value_le
  split
  next hless =>
    rw [less_iff hvalid h, hvalue, add_mod_lt_iff (by omega) (by omega)] at hless
    exact ⟨valid_max, by omega⟩
  next hless =>
    rw [less_iff hvalid h, hvalue, add_mod_lt_iff (by omega) (by omega)] at hless
    refine ⟨hvalid, ?_⟩
    rw [hvalue, Nat.mod_eq_of_lt (by omega)]
    omega

theorem sub_spec (h : d.Valid) (hrhs : rhs.Valid) :
    (d.sub rhs).Valid ∧ (d.sub rhs).value = d.value - rhs.value := by
  have hs := h.seconds
  have hn := h.nanoseconds
  have hn' := hrhs.nanoseconds
  unfold sub
  split
  next hless =>
    rw [less_iff h hrhs] at hless
    refine ⟨valid_zero, ?_⟩
    have hzero : zero.value = 0 := by decide
    omega
  next hless =>
    rw [less_iff h hrhs] at hless
    simp only
    split
    next hge =>
      rw [createDuration_of_valid (by omega)]
      refine ⟨⟨by simp only; omega, by simp only; omega⟩, ?_⟩
      simp only [value, twoDigits, Nat.not_lt] at hless ⊢
      rw [nanosecsPerSec_eq] at *
      omega
    next hlt =>
      rw [toUint32_of_lt (by rw [nanosecsPerSec_eq] at *; omega),
        createDuration_of_valid (by omega)]
      refine ⟨⟨by simp only; omega, by simp only; omega⟩, ?_⟩
      simp only [value, twoDigits, Nat.not_lt] at hless ⊢
      rw [nanosecsPerSec_eq] at *
      omega

/-- The nanoseconds times the upper half of the factor, where `x` is that product and one
counts for `2 ^ 32` nanoseconds: whole blocks of seconds and the rest. -/
theorem fullBlocks_spec {x : Nat} (hx : x ≤ 999999999 * 4294967295) :
    ((createDuration (toUint64 (x / oneFullBlockOfSecondsOnly * secondsPerFullBlock)) 0).add
        (fromNanoseconds (toUint64 (x % oneFullBlockOfSecondsOnly * 2 ^ 32)))).Valid ∧
      ((createDuration (toUint64 (x / oneFullBlockOfSecondsOnly * secondsPerFullBlock)) 0).add
        (fromNanoseconds (toUint64 (x % oneFullBlockOfSecondsOnly * 2 ^ 32)))).value =
          x * 2 ^ 32 := by
  have hblock : oneFullBlockOfSecondsOnly = 1953125 := by decide
  have hperBlock : secondsPerFullBlock = 8388608 := by decide
  rw [hblock, hperBlock]
  have hblocks : x / 1953125 * 8388608 < 2 ^ 64 := by omega
  have hrest : x % 1953125 * 2 ^ 32 < 2 ^ 64 :=
    (Nat.mul_lt_mul_of_pos_right (Nat.mod_lt x (by decide)) (by decide)).trans (by decide)
  rw [toUint64_of_lt hblocks, toUint64_of_lt hrest]
  obtain ⟨hseconds, hsecondsValue⟩ := createDuration_seconds hblocks
  obtain ⟨hnanos, hnanosValue⟩ := fromNanoseconds_spec hrest
  obtain ⟨hvalid, hvalue⟩ := add_spec hseconds hnanos
  refine ⟨hvalid, ?_⟩
  rw [hvalue, hsecondsValue, hnanosValue, max_value, nanosecsPerSec_eq]
  omega

theorem multiplyWith_spec {k : Nat} (h : d.Valid) (hpos : 0 < k) (hk : k < 2 ^ 64) :
    (d.multiplyWith k).Valid ∧ (d.multiplyWith k).value = min (d.value * k) max.value := by
  have hproduct : d.value * k = d.seconds * k * nanosecsPerSec + d.nanoseconds * k := by
    rw [value, twoDigits, Nat.add_mul, Nat.mul_right_comm]
  rw [hproduct]
  unfold multiplyWith
  simp only [gt_iff_lt, ← Nat.not_le, Nat.le_div_iff_mul_le hpos]
  split
  next hover =>
    refine ⟨valid_max, ?_⟩
    simp only [uint64Max] at hover
    rw [max_value, nanosecsPerSec_eq]
    omega
  next hseconds =>
    have hseconds : d.seconds * k < 2 ^ 64 := by
      simp only [uint64Max] at hseconds
      omega
    obtain ⟨hs, hsValue⟩ := createDuration_seconds hseconds
    rw [toUint64_of_lt hseconds]
    split
    next hfits =>
      have hfits : d.nanoseconds * k < 2 ^ 64 := by
        simp only [uint64Max] at hfits
        omega
      obtain ⟨hn, hnValue⟩ := fromNanoseconds_spec hfits
      obtain ⟨hvalid, hvalue⟩ := add_spec hs hn
      rw [toUint64_of_lt hfits]
      exact ⟨hvalid, by rw [hvalue, hsValue, hnValue]⟩
    next =>
      have hle : d.nanoseconds ≤ 999999999 := by
        have hn := h.nanoseconds
        rw [nanosecsPerSec_eq] at hn
        omega
      have hlow : d.nanoseconds * (k % 2 ^ 32) ≤ 999999999 * 4294967295 :=
        Nat.mul_le_mul hle (by omega)
      have hhigh : d.nanoseconds * (k / 2 ^ 32) ≤ 999999999 * 4294967295 :=
        Nat.mul_le_mul hle (by omega)
      have hhalves : d.nanoseconds * k =
          d.nanoseconds * (k % 2 ^ 32) + d.nanoseconds * (k / 2 ^ 32) * 2 ^ 32 := by
        rw [Nat.mul_assoc, ← Nat.mul_add, Nat.mul_comm (k / 2 ^ 32), Nat.mod_add_div]
      obtain ⟨hn, hnValue⟩ := fromNanoseconds_spec
        (n := d.nanoseconds * (k % 2 ^ 32)) (by omega)
      obtain ⟨hb, hbValue⟩ := fullBlocks_spec hhigh
      obtain ⟨hlowSum, hlowValue⟩ := add_spec hs hn
      obtain ⟨hvalid, hvalue⟩ := add_spec hlowSum hb
      have hhigh32 : toUint32 (k / 2 ^ 32) = k / 2 ^ 32 := toUint32_of_lt (by omega)
      rw [hhigh32, toUint32, toUint64_of_lt (n := d.nanoseconds * (k % 2 ^ 32)) (by omega),
        toUint64_of_lt (n := d.nanoseconds * (k / 2 ^ 32)) (by omega)]
      refine ⟨hvalid, ?_⟩
      rw [hvalue, hlowValue, hsValue, hnValue, hbValue, min_add_min, hhalves, Nat.add_assoc]

theorem mul_spec {k : Int} (h : d.Valid) (hk : Integer64 k) :
    (d.mul k).Valid ∧ (d.mul k).value = clamp (d.value * k) := by
  have hzero : zero.value = 0 := by decide
  unfold mul clamp
  split
  next hnone =>
    refine ⟨valid_zero, ?_⟩
    rw [hzero]
    rcases hnone with hneg | rfl
    · have hle : (d.value : Int) * k ≤ 0 :=
        Int.mul_nonpos_of_nonneg_of_nonpos (Int.natCast_nonneg _) hneg
      omega
    · rw [hzero]
      simp
  next hpos =>
    obtain ⟨n, rfl⟩ := Int.eq_ofNat_of_zero_le (show 0 ≤ k by omega)
    have hn : n < 2 ^ 64 := by
      have := hk.2
      omega
    rw [Int.emod_eq_of_lt (Int.natCast_nonneg n) hk.2, Int.toNat_natCast, ← Int.natCast_mul,
      Int.toNat_natCast]
    exact multiplyWith_spec h (by omega) hn

end Duration

inductive TimeUnit
  | nanoseconds | microseconds | milliseconds | seconds | minutes | hours | days
  deriving DecidableEq, Repr

namespace TimeUnit

open Duration (nanosecsPerSec)

def fromUnit : TimeUnit → Int → Duration
  | nanoseconds => .fromNanoseconds
  | microseconds => .fromMicroseconds
  | milliseconds => .fromMilliseconds
  | seconds => .fromSeconds
  | minutes => .fromMinutes
  | hours => .fromHours
  | days => .fromDays

def toUnit : TimeUnit → Duration → Nat
  | nanoseconds => Duration.toNanoseconds
  | microseconds => Duration.toMicroseconds
  | milliseconds => Duration.toMilliseconds
  | seconds => Duration.toSeconds
  | minutes => Duration.toMinutes
  | hours => Duration.toHours
  | days => Duration.toDays

def nanosecs : TimeUnit → Nat
  | nanoseconds => 1
  | microseconds => 1000
  | milliseconds => 1000000
  | seconds => nanosecsPerSec
  | minutes => 60 * nanosecsPerSec
  | hours => 60 * 60 * nanosecsPerSec
  | days => 24 * 60 * 60 * nanosecsPerSec

theorem nanosecs_pos (u : TimeUnit) : 0 < u.nanosecs := by
  cases u <;> decide

theorem toNat_mul_le {k : Int} {unit : Nat} (hk : Integer64 k) (hunit : unit ≤ 1000000) :
    k.toNat * unit ≤ Duration.max.value := by
  have hc : k.toNat ≤ 2 ^ 64 := by
    have := hk.2
    omega
  exact (Nat.mul_le_mul hc hunit).trans (by rw [Duration.max_value]; decide)

theorem fromUnit_spec (u : TimeUnit) {k : Int} (hk : Integer64 k) :
    (u.fromUnit k).Valid ∧
      (u.fromUnit k).value = min (k.toNat * u.nanosecs) Duration.max.value := by
  cases u with
  | nanoseconds =>
    rw [nanosecs, min_eq_left (toNat_mul_le hk (by decide))]
    exact Duration.fromFraction_spec (by decide) hk
  | microseconds =>
    rw [nanosecs, min_eq_left (toNat_mul_le hk (by decide))]
    exact Duration.fromFraction_spec (by decide) hk
  | milliseconds =>
    rw [nanosecs, min_eq_left (toNat_mul_le hk (by decide))]
    exact Duration.fromFraction_spec (by decide) hk
  | seconds =>
    have hspec := Duration.fromMultiple_spec Nat.one_pos hk
    rwa [Nat.one_mul] at hspec
  | minutes => exact Duration.fromMultiple_spec (by decide) hk
  | hours => exact Duration.fromMultiple_spec (by decide) hk
  | days => exact Duration.fromMultiple_spec (by decide) hk

theorem seconds_div {d : Duration} (h : d.Valid) (n : Nat) :
    d.seconds / n = min (d.value / (n * nanosecsPerSec)) uint64Max := by
  have hdiv : d.value / (n * nanosecsPerSec) = d.seconds / n := by
    rw [Nat.mul_comm, ← Nat.div_div_eq_div_mul, Duration.value,
      Lib.Words.twoDigits_div h.nanoseconds]
  rw [hdiv, min_eq_left]
  exact (Nat.div_le_self _ _).trans (Nat.le_sub_one_of_lt h.seconds)

theorem toUnit_spec (u : TimeUnit) {d : Duration} (h : d.Valid) :
    u.toUnit d = min (d.value / u.nanosecs) uint64Max := by
  cases u with
  | nanoseconds => exact Duration.toFraction_spec (by decide) h
  | microseconds => exact Duration.toFraction_spec (by decide) h
  | milliseconds => exact Duration.toFraction_spec (by decide) h
  | seconds =>
    have hspec := seconds_div h 1
    rwa [Nat.div_one, Nat.one_mul] at hspec
  | minutes => exact seconds_div h 60
  | hours => exact seconds_div h (60 * 60)
  | days => exact seconds_div h (24 * 60 * 60)

/-- A count of units comes back as long as the duration has room for it. -/
theorem toUnit_fromUnit (u : TimeUnit) {k : Int} (hk : Integer64 k) (hpos : 0 ≤ k)
    (hfits : k * u.nanosecs ≤ Duration.max.value) : u.toUnit (u.fromUnit k) = k := by
  obtain ⟨hvalid, hvalue⟩ := u.fromUnit_spec hk
  obtain ⟨n, rfl⟩ := Int.eq_ofNat_of_zero_le hpos
  have hn : n ≤ uint64Max := by
    have := hk.2
    simp only [uint64Max]
    omega
  rw [Int.toNat_natCast, min_eq_left (by exact_mod_cast hfits)] at hvalue
  rw [u.toUnit_spec hvalid, hvalue, Nat.mul_div_cancel n u.nanosecs_pos, min_eq_left hn]

end TimeUnit

/-- The durations a program can come by without floating point numbers. -/
inductive Constructed : Duration → Prop
  | createDuration {seconds nanoseconds : Nat} (hseconds : seconds < 2 ^ 64)
      (hnanoseconds : nanoseconds < 2 ^ 32) :
      Constructed (.createDuration seconds nanoseconds)
  | ofTimeval (tvSec tvUsec : Int) : Constructed (.ofTimeval tvSec tvUsec)
  | ofTimespec (tvSec tvNsec : Int) : Constructed (.ofTimespec tvSec tvNsec)
  | fromUnit (u : TimeUnit) {k : Int} (hk : Integer64 k) : Constructed (u.fromUnit k)
  | add {d rhs : Duration} : Constructed d → Constructed rhs → Constructed (d.add rhs)
  | sub {d rhs : Duration} : Constructed d → Constructed rhs → Constructed (d.sub rhs)
  | mul {d : Duration} {k : Int} (hk : Integer64 k) : Constructed d → Constructed (d.mul k)

theorem Constructed.valid {d : Duration} (h : Constructed d) : d.Valid := by
  have hword (n : Int) : (n % 2 ^ 64).toNat < 2 ^ 64 := by omega
  induction h with
  | createDuration hseconds hnanoseconds =>
    exact (Duration.createDuration_spec hseconds hnanoseconds).1
  | ofTimeval tvSec tvUsec =>
    exact (Duration.createDuration_spec (hword tvSec) (Nat.mod_lt _ (by decide))).1
  | ofTimespec tvSec tvNsec =>
    exact (Duration.createDuration_spec (hword tvSec) (by omega)).1
  | fromUnit u hk => exact (u.fromUnit_spec hk).1
  | add _ _ ih ih' => exact (Duration.add_spec ih ih').1
  | sub _ _ ih ih' => exact (Duration.sub_spec ih ih').1
  | mul hk _ ih => exact (Duration.mul_spec ih hk).1

theorem duration_exact {a b : Duration} (ha : a.Valid) (hb : b.Valid) {k : Int}
    (hk : Integer64 k) (u : TimeUnit) :
    (∀ d, Constructed d → d.nanoseconds < Duration.nanosecsPerSec) ∧
      (a.add b).value = Duration.clamp (a.value + b.value) ∧
      (a.sub b).value = Duration.clamp (a.value - b.value) ∧
      (a.mul k).value = Duration.clamp (a.value * k) ∧
      u.toUnit a = min (a.value / u.nanosecs) uint64Max ∧
      (u.fromUnit k).value = Duration.clamp (max k 0 * u.nanosecs) ∧
      (0 ≤ k → k * u.nanosecs ≤ Duration.max.value → u.toUnit (u.fromUnit k) = k) := by
  refine ⟨fun d hd => hd.valid.nanoseconds, ?_, ?_, (Duration.mul_spec ha hk).2,
    u.toUnit_spec ha, ?_, fun hpos hfits => u.toUnit_fromUnit hk hpos hfits⟩
  · rw [(Duration.add_spec ha hb).2, Duration.clamp, ← Int.natCast_add, Int.toNat_natCast]
  · have hle := ha.value_le
    rw [(Duration.sub_spec ha hb).2, Duration.clamp]
    omega
  · have hproduct : (max k 0 * (u.nanosecs : Int)).toNat = k.toNat * u.nanosecs := by
      rw [← Int.toNat_natCast (k.toNat * u.nanosecs), Int.natCast_mul, Int.ofNat_toNat]
    rw [(u.fromUnit_spec hk).2, Duration.clamp, hproduct]

theorem duration_exact_largest :
    (∀ d, Constructed d → d.nanoseconds < Duration.nanosecsPerSec) ∧
      (Duration.add ⟨3600, 999999999⟩ .max).value =
        Duration.clamp ((Duration.value ⟨3600, 999999999⟩ : Nat) + Duration.max.value) ∧
      (Duration.mul ⟨3600, 999999999⟩ (2 ^ 40 + 7)).value =
        Duration.clamp ((Duration.value ⟨3600, 999999999⟩ : Nat) * (2 ^ 40 + 7)) :=
  have h := duration_exact (a := ⟨3600, 999999999⟩) (b := .max) ⟨by decide, by decide⟩
    Duration.valid_max (k := 2 ^ 40 + 7) (by decide) .hours
  ⟨h.1, h.2.1, h.2.2.2.1⟩

end Iceoryx.Hoofs
