import Defrizer.FilterSoundness
import Defrizer.PacketMachine
import Defrizer.PacketDecision
import Defrizer.ShippedObject
import Defrizer.ShippedBuilds
import Defrizer.BoundedBacklog
import Defrizer.EventAccounting
import Defrizer.BuildAgreement
import Defrizer.BuiltinProgram
import Defrizer.RegisteredQueues
import Defrizer.LatestSocket
import Defrizer.DocumentedUse
import Defrizer.ReceiveLoop
import Defrizer.FrameDelivery
import Defrizer.EventFeed
import Defrizer.SocketStatistics
import Defrizer.CompletionCalls
import Defrizer.SocketResources
import Defrizer.ProgramAttachment
import Defrizer.ProgramPool
import Defrizer.SharedInterface
import Defrizer.DescriptorRanges
import Defrizer.ClientAcknowledgments
import Defrizer.EndianMacros
import Defrizer.CollectedVlans
import Defrizer.ClientFrames
import Defrizer.ProgramResources
import Defrizer.MainFunctions
import Defrizer.DumpframesMain
import Defrizer.PacketSending
