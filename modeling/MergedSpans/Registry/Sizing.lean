import MergedSpans.Arithmetic

/-! # Sizing of pools

How many pools a registry hands out, and how many slots each of them has.

* `Sizing` — the four numbers, with their defaults.
* `SizingError`, `Sizing.validate` — what makes a sizing unusable, in the order it is looked for.
* `Sizing.budget`, `Sizing.pagesPerPool`, `Sizing.slotsReserved` — the sizes that follow.
-/

namespace MergedSpans

/-- The size of the pages that hold the slots of a pool, in bytes. -/
def pageAlign : Nat := 4096

/-- The number of slots that fit in one page. -/
def slotsPerPage : Nat := 85

/-- The sizing of a registry and its pools. -/
structure Sizing where
  /-- Slots in each pool. -/
  poolSlots : UInt32 := 128
  /-- Participants served; their numbers start at zero. -/
  maxParticipants : UInt32 := 32
  /-- Sets that each participant is expected to make. -/
  setsPerParticipant : UInt32 := 3
  /-- Bytes in a page that two pools must not share. -/
  pageSize : UInt64 := 4096
  deriving DecidableEq

/-- The default sizing. -/
instance : Inhabited Sizing := ⟨{}⟩

/-- What makes a sizing unusable. -/
inductive SizingError where
  /-- Pools without slots. -/
  | noSlots
  /-- No participants. -/
  | noParticipants
  /-- Participants without sets. -/
  | noSets
  /-- A page size that is no power of two. -/
  | unevenPageSize (pageSize : UInt64)
  /-- A page size above the alignment of a pool's slots. -/
  | pageSizeTooLarge (pageSize : UInt64) (greatest : Nat)
  /-- More pools than can be counted. -/
  | tooManyPools
  deriving DecidableEq

namespace SizingError

/-- The error in messages. -/
def message : SizingError → String
  | noSlots => "pool_slots must be at least 1"
  | noParticipants => "max_participants must be at least 1"
  | noSets => "sets_per_participant must be at least 1"
  | unevenPageSize pageSize =>
    "page_size " ++ Text.decimal pageSize.toNat ++ " is not a power of two"
  | pageSizeTooLarge pageSize greatest =>
    "page_size " ++ Text.decimal pageSize.toNat ++ " exceeds the supported maximum of "
      ++ Text.decimal greatest
  | tooManyPools => "max_participants * sets_per_participant overflows usize"

/-- The error in diagnostics. -/
def debugText : SizingError → String
  | noSlots => Text.record "ZeroPoolSlots" []
  | noParticipants => Text.record "ZeroParticipants" []
  | noSets => Text.record "ZeroSetsPerParticipant" []
  | unevenPageSize pageSize =>
    Text.record "InvalidPageSize" [("page_size", Text.decimal pageSize.toNat)]
  | pageSizeTooLarge pageSize greatest =>
    Text.record "PageSizeTooLarge"
      [("page_size", Text.decimal pageSize.toNat), ("max", Text.decimal greatest)]
  | tooManyPools => Text.record "PoolCountOverflow" []

end SizingError

namespace Sizing

/-- Pools that a registry of this sizing hands out, or the greatest number there is. -/
def budget (sizing : Sizing) : Nat :=
  Arithmetic.saturatingMul sizing.maxParticipants.toNat sizing.setsPerParticipant.toNat

/-- Pages that each pool takes for its slots. -/
def pagesPerPool (sizing : Sizing) : Nat :=
  (sizing.poolSlots.toNat + (slotsPerPage - 1)) / slotsPerPage

/-- Slots in those pages, of which a pool uses the first `poolSlots`. -/
def slotsReserved (sizing : Sizing) : Except Fault Nat :=
  Arithmetic.mul sizing.pagesPerPool slotsPerPage

/-- Check a sizing; the first thing wrong with it is the answer. -/
def validate (sizing : Sizing) : Except SizingError Unit :=
  if sizing.poolSlots = 0 then .error .noSlots
  else if sizing.maxParticipants = 0 then .error .noParticipants
  else if sizing.setsPerParticipant = 0 then .error .noSets
  else if ¬ sizing.pageSize.toNat.isPowerOfTwo then .error (.unevenPageSize sizing.pageSize)
  else if pageAlign < sizing.pageSize.toNat then
    .error (.pageSizeTooLarge sizing.pageSize pageAlign)
  else
    match Arithmetic.mul sizing.maxParticipants.toNat sizing.setsPerParticipant.toNat with
    | .error _ => .error .tooManyPools
    | .ok _ => .ok ()

/-- The sizing in diagnostics. -/
def debugText (sizing : Sizing) : String :=
  Text.record "RegistryConfig"
    [("pool_slots", Text.decimal sizing.poolSlots.toNat),
      ("max_participants", Text.decimal sizing.maxParticipants.toNat),
      ("sets_per_participant", Text.decimal sizing.setsPerParticipant.toNat),
      ("page_size", Text.decimal sizing.pageSize.toNat)]

end Sizing

end MergedSpans
