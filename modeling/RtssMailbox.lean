import RtssMailbox.Library.Program
import RtssMailbox.Library.ByteMemory
import RtssMailbox.MailboxLayout
import RtssMailbox.MailboxLibrary
import RtssMailbox.MailboxConfiguration
import RtssMailbox.ConfigurationBounds
import RtssMailbox.ChannelPlanning
import RtssMailbox.Library.CyclicBuffer
import RtssMailbox.RingOperations
import RtssMailbox.ChannelState
import RtssMailbox.Library.Refinement
import RtssMailbox.RingQueue
import RtssMailbox.MailboxCreation
import RtssMailbox.ChannelHandle
import RtssMailbox.ChannelWrite
import RtssMailbox.ChannelOpen
import RtssMailbox.MappedBounds
import RtssMailbox.ChannelIsolation
import RtssMailbox.Library.RelyGuarantee
import RtssMailbox.RingInterleaving
import RtssMailbox.RingWriter
import RtssMailbox.RingReader
import RtssMailbox.RingSafety
import RtssMailbox.Library.Iteration
import RtssMailbox.Library.Layers
import RtssMailbox.ByteAccounting
import RtssMailbox.NotifiedChannel
import RtssMailbox.NotifiedReads
import RtssMailbox.Library.Monitor
import RtssMailbox.RingSnapshots
import RtssMailbox.Library.CyclicRedundancy
import RtssMailbox.UpdaterChecksums
import RtssMailbox.ChecksumEquivalence
import RtssMailbox.BurstDetection
import RtssMailbox.GptVerification
import RtssMailbox.GptFailover
import RtssMailbox.GptLookups
import RtssMailbox.Library.Resources
import RtssMailbox.HandleLifetimes
import RtssMailbox.OtaReferenceCount
import RtssMailbox.UpdaterMessages
import RtssMailbox.GuidStrings
import RtssMailbox.HelloPing
import RtssMailbox.HandshakeResponses
import RtssMailbox.UpdaterCommands
import RtssMailbox.UpdaterSequences
import RtssMailbox.UpdaterSteps
import RtssMailbox.CommandMessages
import RtssMailbox.ResponseWaits
import RtssMailbox.Library.Tokens
import RtssMailbox.UpdaterConfig
import RtssMailbox.ConfigFormat
import RtssMailbox.Library.Marks
import RtssMailbox.EntryAccesses
import RtssMailbox.Library.Agreement
import RtssMailbox.StringSlots
import RtssMailbox.ImageOverrun
import RtssMailbox.CommitOrder
import RtssMailbox.ImageMirroring
import RtssMailbox.BootStateCheck
import RtssMailbox.FileFlashing
import RtssMailbox.OtaBufferBounds
import RtssMailbox.ConfigRoundTrip
import RtssMailbox.GptFileReads
import RtssMailbox.HandshakeAttempts
import RtssMailbox.HandshakeFailure
import RtssMailbox.CommandLine
import RtssMailbox.StringArguments
import RtssMailbox.GptWrites
import RtssMailbox.ByteCopy
import RtssMailbox.BufferLengths
import RtssMailbox.MailboxSystem
import RtssMailbox.ChannelDiscovery
import RtssMailbox.MessageFraming
import RtssMailbox.Library.ThreadPool
import RtssMailbox.MailboxThreads
import RtssMailbox.MailboxSessions
import RtssMailbox.SequenceInvariants
import RtssMailbox.UpdaterProcess
import RtssMailbox.UpdaterAccounting
import RtssMailbox.UpdateCompletion
import RtssMailbox.ConsoleStream
