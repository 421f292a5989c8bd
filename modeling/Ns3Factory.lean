import Ns3Factory.CheckedArithmetic
import Ns3Factory.CheckedGateway
import Ns3Factory.CommitInterleaving
import Ns3Factory.CycleBoundaries
import Ns3Factory.DispatchOrder
import Ns3Factory.DispatchConservation
import Ns3Factory.QueueRefinement
import Ns3Factory.LedgerHistory
import Ns3Factory.MidSignalMotion
import Ns3Factory.OvertakenCycle
import Ns3Factory.PlanOutcome
import Ns3Factory.PlanningCycles
import Ns3Factory.OverlapWindows
import Ns3Factory.ReceptionIds
import Ns3Factory.ReceptionProvenance
import Ns3Factory.WindowCompleteness
import Ns3Factory.RejectedRequests
import Ns3Factory.SampledPositions
import Ns3Factory.SendConservation
import Ns3Factory.SessionProvenance
import Ns3Factory.SignalEnvelope
import Ns3Factory.SignalPhases
import Ns3Factory.SuccessivePlans
import Ns3Factory.TransmissionEffects
import Ns3Factory.TransmissionFanOut
