import RecordBuffer.Buffer.Description
import RecordBuffer.Main
import RecordBuffer.Session
import RecordBuffer.Proofs.StableSort
import RecordBuffer.Proofs.RangeSort
import RecordBuffer.Proofs.RecordList
import RecordBuffer.Proofs.Orders
import RecordBuffer.Proofs.Program
import RecordBuffer.Proofs.Making
import RecordBuffer.Proofs.Sizes
import RecordBuffer.Proofs.Backings
import RecordBuffer.Proofs.Reopening
import RecordBuffer.Proofs.FailedCreation
import RecordBuffer.Proofs.FailedRun
import RecordBuffer.Proofs.CompletedRun
import RecordBuffer.Proofs.Representatives
import RecordBuffer.Proofs.RoundTrip
import RecordBuffer.Proofs.StoredPrefix
import RecordBuffer.Proofs.FaultedRun
import RecordBuffer.Proofs.Rounding
import RecordBuffer.Proofs.UniqueNumbers
import RecordBuffer.Proofs.Rearranging
import RecordBuffer.Proofs.Reported
import RecordBuffer.Proofs.StartOffset
import RecordBuffer.Proofs.Lifetimes
import RecordBuffer.Proofs.Staging
import RecordBuffer.Proofs.InputOrder
import RecordBuffer.Proofs.NumericOrder
import RecordBuffer.Proofs.Offsets
import RecordBuffer.Proofs.Requests
import RecordBuffer.Proofs.GrowthPolicy
import RecordBuffer.Proofs.CutRange
import RecordBuffer.Proofs.Addressed
import RecordBuffer.Proofs.Walks
import RecordBuffer.Proofs.InPlace
import RecordBuffer.Proofs.MappedFiles
import RecordBuffer.Proofs.Decoding
import RecordBuffer.Proofs.Ranges
import RecordBuffer.Proofs.Configured
import RecordBuffer.Proofs.MergeLoop
import RecordBuffer.Proofs.Cutting
import RecordBuffer.Proofs.MergeTree
