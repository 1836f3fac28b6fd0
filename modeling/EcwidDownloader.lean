import EcwidDownloader.Proofs.Budget
import EcwidDownloader.Proofs.WakeUp
import EcwidDownloader.Proofs.TcpEof
import EcwidDownloader.Proofs.TcpStop
import EcwidDownloader.Proofs.FinalReport
import EcwidDownloader.Proofs.FinishedFile
import EcwidDownloader.Proofs.DoneReport
import EcwidDownloader.Proofs.FlowControl
import EcwidDownloader.Proofs.EveryTask
import EcwidDownloader.Jobs.FactorySimple
import EcwidDownloader.Proofs.TcpPause
import EcwidDownloader.Proofs.TcpClose
import EcwidDownloader.Proofs.Rounding
import EcwidDownloader.Proofs.WorkConserving
import EcwidDownloader.Proofs.StreamRegistry
import EcwidDownloader.Proofs.FileContent
import EcwidDownloader.Proofs.LeftoverFile
import EcwidDownloader.Proofs.ListenersInPlace
import EcwidDownloader.Proofs.BoundedRedirects
import EcwidDownloader.Proofs.TaskFile
import EcwidDownloader.Proofs.RequestTarget
import EcwidDownloader.Proofs.ResponseHeaders
import EcwidDownloader.Proofs.ReadTimeout
import EcwidDownloader.Proofs.OneOperation
import EcwidDownloader.Proofs.ProgramOptions
import EcwidDownloader.Proofs.ThrottleArithmetic
import EcwidDownloader.Proofs.SocketRounds
import EcwidDownloader.Proofs.EventForwarding
import EcwidDownloader.Proofs.OutputFolder
import EcwidDownloader.Proofs.ProgramSummary
import EcwidDownloader.Proofs.TaskNumbers
import EcwidDownloader.Proofs.ThrottledHalves
import EcwidDownloader.Proofs.ProgramWaits
