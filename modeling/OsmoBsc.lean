import OsmoBsc.Lib.Fsm
import OsmoBsc.Lib.Pairing
import OsmoBsc.GsmData
import OsmoBsc.Lcls.Model
import OsmoBsc.Lcls.Dispatch
import OsmoBsc.Lcls.Safety
import OsmoBsc.Lcls.Symmetry
import OsmoBsc.Lcls.Media
import OsmoBsc.Lcls.Setup
import OsmoBsc.Chan.Activation
import OsmoBsc.Chan.Readiness
import OsmoBsc.Chan.Procedures
import OsmoBsc.Chan.Zombies
import OsmoBsc.Chan.Agreement
import OsmoBsc.Chan.HandoverOut
import OsmoBsc.Chan.Layout
import OsmoBsc.Chan.FreeCount
import OsmoBsc.Chan.HandoverPerformed
import OsmoBsc.Lib.Cyclic
import OsmoBsc.Si.FreqList
import OsmoBsc.Si.WnPacking
import OsmoBsc.Si.RoundTrip
import OsmoBsc.Si.Selection
import OsmoBsc.Si.VarBitmap
import OsmoBsc.Si.ExtInd
import OsmoBsc.Si.MeasRep
import OsmoBsc.Si.Noninterference
import OsmoBsc.Chan.TsLink
import OsmoBsc.Si.CcchConf
import OsmoBsc.Si.Configured
import OsmoBsc.Lib.Grouped
import OsmoBsc.Si.Alike
import OsmoBsc.Si.UarfcnLists
import OsmoBsc.Si.Rejection
import OsmoBsc.Si.FddCells
import OsmoBsc.Lib.Scan
import OsmoBsc.Hodec.Alternative
import OsmoBsc.Filter.Soundness
import OsmoBsc.Paging.Queue
import OsmoBsc.Dtap.Runs
import OsmoBsc.Counters.Conservation
import OsmoBsc.Neighbor.Ident
import OsmoBsc.Hodec.Tracking
import OsmoBsc.Hodec.Candidates
import OsmoBsc.Subscr.Holders
import OsmoBsc.Subscr.Identity
import OsmoBsc.Acc.Isolation
import OsmoBsc.Pcu.Sock
import OsmoBsc.Codec.Pref
import OsmoBsc.Neighbor.Reload
import OsmoBsc.Nm.Discipline
import OsmoBsc.Nm.Load
import OsmoBsc.Ipaccess.LinkLoss
import OsmoBsc.Om2k.Ownership
import OsmoBsc.Sccp.Sessions
import OsmoBsc.HandoverIn.Answer
import OsmoBsc.Nokia.RoundTrip
import OsmoBsc.Rsl.PchanRqd
import OsmoBsc.Rsl.Robustness
import OsmoBsc.Si.MeasResults
import OsmoBsc.Codec.Multirate
import OsmoBsc.Hodec.Triggering
import OsmoBsc.Rsl.MeasRes
import OsmoBsc.Bssap.Deframe
import OsmoBsc.Bssap.CipherMode
import OsmoBsc.Filter.Bounds
import OsmoBsc.Chan.ChanLoad
import OsmoBsc.Acc.Interval
import OsmoBsc.Hodec.PenaltyTimers
import OsmoBsc.Hodec.Congestion
import OsmoBsc.Nm.Newest
import OsmoBsc.Si.MobileAllocation
import OsmoBsc.Neighbor.Resolution
import OsmoBsc.Paging.Credit
import OsmoBsc.Chan.Admission
import OsmoBsc.Oml.Bounds
import OsmoBsc.Om2k.Bounds
import OsmoBsc.Om2k.Coverage
import OsmoBsc.Hodec.AlgorithmOne
import OsmoBsc.Rf.Switching
import OsmoBsc.Msc.RoundRobin
import OsmoBsc.Msc.Reset
import OsmoBsc.Paging.Bssmap
import OsmoBsc.Chan.TchKind
import OsmoBsc.Chan.Physical
import OsmoBsc.Rr.Commands
import OsmoBsc.Si.RestRead
