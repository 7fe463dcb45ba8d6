import CheckpointStore.Image.Checksum
import CheckpointStore.Main
import CheckpointStore.Proofs.Words
import CheckpointStore.Proofs.Reading
import CheckpointStore.Proofs.Trailers
import CheckpointStore.Proofs.Blocks
import CheckpointStore.Proofs.Checkpoints
import CheckpointStore.Proofs.Layouts
import CheckpointStore.Proofs.Openings
import CheckpointStore.Proofs.Appends
import CheckpointStore.Proofs.Merges
import CheckpointStore.Proofs.Reads
import CheckpointStore.Proofs.Contents
import CheckpointStore.Proofs.Commits
import CheckpointStore.Proofs.Sessions
import CheckpointStore.Proofs.Slots
import CheckpointStore.Proofs.Tombstones
import CheckpointStore.Proofs.Reopenings
import CheckpointStore.Proofs.Turns
import CheckpointStore.Proofs.Crashes
import CheckpointStore.Proofs.Failures
import CheckpointStore.Proofs.Maps
import CheckpointStore.Proofs.Leftovers
import CheckpointStore.Proofs.Histories
import CheckpointStore.Proofs.Checksums
import CheckpointStore.Proofs.Damage
import CheckpointStore.Proofs.Tails
import CheckpointStore.Proofs.Scans
import CheckpointStore.Proofs.Identifiers
import CheckpointStore.Proofs.Guards
import CheckpointStore.Proofs.GuardedOpenings
import CheckpointStore.Proofs.GuardedReads
import CheckpointStore.Proofs.Exports
import CheckpointStore.Proofs.Paths
import CheckpointStore.Proofs.Files
import CheckpointStore.Proofs.FileDevices
import CheckpointStore.Proofs.FileSessions
import CheckpointStore.Proofs.Tokens
import CheckpointStore.Proofs.RoundTrips
import CheckpointStore.Proofs.Rereads
import CheckpointStore.Proofs.Texts
import CheckpointStore.Proofs.Versions
import CheckpointStore.Proofs.Records
import CheckpointStore.Proofs.Commands
import CheckpointStore.Proofs.Grammars
import CheckpointStore.Proofs.Replays
import CheckpointStore.Proofs.Reloads
import CheckpointStore.Proofs.Listings
import CheckpointStore.Proofs.Writes
import CheckpointStore.Proofs.Spellings
import CheckpointStore.Proofs.Interleavings
import CheckpointStore.Proofs.Creations
import CheckpointStore.Proofs.Recodings
import CheckpointStore.Proofs.Sizes
import CheckpointStore.Proofs.Replacements
import CheckpointStore.Proofs.Chains
