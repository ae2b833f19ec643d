import OpaeSim.Guarantees.PageTable
import OpaeSim.Guarantees.AtsTranslation
import OpaeSim.Guarantees.MmioScoreboard
import OpaeSim.Guarantees.SoftReset
import OpaeSim.Guarantees.TagMapper
import OpaeSim.Guarantees.ReadCompletions
import OpaeSim.Guarantees.StreamFraming
import OpaeSim.Guarantees.AtsPayload
import OpaeSim.Guarantees.AtsInvalidation
import OpaeSim.Guarantees.StaleTranslation
import OpaeSim.Guarantees.AtsHolders
import OpaeSim.Guarantees.IovaIsolation
import OpaeSim.Guarantees.CompletionSplit
import OpaeSim.Guarantees.HandleLifetime
import OpaeSim.Guarantees.HdrRoundTrip
import OpaeSim.Guarantees.HdrLayout
import OpaeSim.Guarantees.MalformedTlps
import OpaeSim.Guarantees.MmioTags
import OpaeSim.Guarantees.DmaBounds
import OpaeSim.Guarantees.Atomics
import OpaeSim.Guarantees.DmaWrite
import OpaeSim.Guarantees.MmioAnswers
import OpaeSim.Guarantees.DmaOrdering
import OpaeSim.Guarantees.AtsAdmission
import OpaeSim.Guarantees.MmioHistory
import OpaeSim.Guarantees.InterruptEvents
import OpaeSim.Guarantees.PartialWrites
import OpaeSim.Guarantees.DeviceIds
import OpaeSim.Guarantees.ItagRelease
import OpaeSim.Guarantees.LockDiscipline
import OpaeSim.Guarantees.BufferPreparation
import OpaeSim.Guarantees.BufferTranslation
import OpaeSim.Guarantees.BufferMemory
import OpaeSim.Guarantees.LegacyInterrupts
import OpaeSim.Guarantees.WsidTracker
import OpaeSim.Guarantees.CompletionList
import OpaeSim.Guarantees.MessageQueues
import OpaeSim.Guarantees.ResetHandshake
import OpaeSim.Guarantees.HazardMonitor
import OpaeSim.Guarantees.HssiFidelity
import OpaeSim.Guarantees.CompletionHeaders
import OpaeSim.Guarantees.MmioBounds
import OpaeSim.Guarantees.TokenProperties
import OpaeSim.Guarantees.AvmmBridge
import OpaeSim.Guarantees.LegacyStream
import OpaeSim.Guarantees.CcipChannels
import OpaeSim.Guarantees.CcipEmulator
import OpaeSim.Source.CcipChecker
import OpaeSim.Source.CcipChecker.Packets
