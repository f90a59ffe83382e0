import DiskBringup.Bench.Basic
import DiskBringup.Bench.FlatDisk
import DiskBringup.Bench.SparseDisk
import DiskBringup.BootArgs.CommandLine
import DiskBringup.Layout.Place
import DiskBringup.Proofs.Allotment
import DiskBringup.Proofs.Footprint
import DiskBringup.Proofs.TableOnDisk
import DiskBringup.Storage.Basic
import DiskBringup.Proofs.TableCalls
import DiskBringup.Proofs.Attempt
import DiskBringup.Proofs.SignatureDriver
import DiskBringup.Proofs.BringUp
import DiskBringup.Proofs.Placement
import DiskBringup.Proofs.Recovery
import DiskBringup.Proofs.KeptPartitions
import DiskBringup.Proofs.PreparedDisk
import DiskBringup.Proofs.SharedBlocks
import DiskBringup.Proofs.Logs
import DiskBringup.Proofs.Visits
import DiskBringup.Proofs.Sessions
import DiskBringup.Proofs.MountedFilesystems
import DiskBringup.Proofs.ForeignBlocks
import DiskBringup.Proofs.Views
import DiskBringup.Proofs.ReadBack
import DiskBringup.Proofs.StaleEntries
import DiskBringup.Proofs.GuardedDisks
import DiskBringup.Proofs.TableOutOfReach
import DiskBringup.Proofs.ParsedConfigs
import DiskBringup.Proofs.OnePartition
import DiskBringup.Proofs.MountedAsFound
import DiskBringup.Proofs.ExactLayouts
import DiskBringup.Proofs.AtomicEntries
import DiskBringup.Proofs.ReportedFailures
import DiskBringup.Proofs.SafeArithmetic
import DiskBringup.Proofs.ClaimedBytes
import DiskBringup.Proofs.SeenRecords
import DiskBringup.Proofs.TableEdits
import DiskBringup.Proofs.FailedEvents
import DiskBringup.Proofs.PackedAddresses
import DiskBringup.Proofs.SizesInWords
import DiskBringup.Proofs.BlockArrays
