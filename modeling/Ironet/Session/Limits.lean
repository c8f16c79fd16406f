import Ironet.Reassembly.Train

/-!
# Negotiated wire limits

The limits two peers agree on (`protocol/v2/session.rs`) and the limits of one train that a
receiver derives from them (`V2Rx::build_epoch_state` in `protocol/v2/dataplane.rs`).
-/
namespace Ironet.Session
open Support Cell Reassembly

structure WireLimitsV2 where
  maxDatagramSize : UInt16
  maxControlSize : UInt32
  maxTrainSize : UInt32
  maxRecordSize : UInt32
  maxCellsPerTrain : UInt16
  maxActiveTrains : UInt16
  deriving DecidableEq, Repr

variable (limits : WireLimitsV2)

/-- `per_train_bytes` of `build_epoch_state`; the factors are small, so the checked arithmetic on
`usize` does not fail. -/
def perTrainBytes : Nat :=
  max (max limits.maxTrainSize.toNat limits.maxRecordSize.toNat) Cell.maxRecordBytes +
    limits.maxCellsPerTrain.toNat * maxMetadataBytes

def perTrain : ReassemblyLimits where
  maximumCells := limits.maxCellsPerTrain.toNat
  maximumActiveRecords := limits.maxCellsPerTrain.toNat
  maximumBufferedBytes := perTrainBytes limits

end Ironet.Session
