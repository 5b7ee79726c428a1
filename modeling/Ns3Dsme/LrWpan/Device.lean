/-
# The device as a machine

Everything that can happen to a device, one input at a time: requests of the next higher
layer, indications and late confirms of the PHY, changes of the allocation table, and the
pending events.  Events run in the order of their times; two events of one time may run
in either order, and other inputs may come in between.
-/
import Ns3Dsme.Lib.Machine
import Ns3Dsme.LrWpan.Reception

namespace Ns3Dsme

/-- What happens to a device. -/
inductive Action
  | mcpsDataRequest (params : Mac.McpsDataRequestParams)
  | mlmeStartRequest (params : MlmeStartRequestParams) (pageOk channelOk : Bool)
  | mlmeSyncRequest (trackBcn : Bool)
  | pdDataIndication (p : Packet) (fcsOk : Bool)
  /-- A confirm that the PHY did not give at once. -/
  | plmeSetTRXStateConfirm (status : LrWpanPhyEnumeration)
  /-- The PHY gives up an assessment because its transmitter is needed. -/
  | ccaCancelled
  | addDsmeACTEntity (superframeID : ℕ) (entity : MacDSMEACTEntity)
  | resizeScheduleGTSsEvent (bcnOrder multisfrmOrd sfrmOrd : ℕ)
  | deallocate (superframeID idx : ℕ)
  | expire (superframeID idx : ℕ)
  | scheduleGts (indication : Bool)
  | purgeDsmeACT
  /-- Pending event number `i` runs. -/
  | fire (i : ℕ)
  /-- Nothing happens until time `t`. -/
  | tick (t : ℤ)

/-- An action, and what the PHY answers while it is carried out. -/
structure Input where
  action : Action
  answers : PhyAnswers := {}

namespace Mac

/-- Run a pending event. -/
def dispatch (event : MacEvent) (s : Mac) : Exec Mac :=
  match event with
  | .setLrWpanMacState macState => s.setLrWpanMacState macState
  | .setLrWpanMacStateToGTS superframeID idx => s.setLrWpanMacStateToGTS superframeID idx
  | .ifsWaitTimeout ifsTime => s.ifsWaitTimeout ifsTime
  | .startCAP superframeType => s.startCAP superframeType
  | .startCFP superframeType => s.startCFP superframeType
  | .startRemainingPeriod superframeType => s.startRemainingPeriod superframeType
  | .awaitBeacon => .ok s.awaitBeacon
  | .beaconSearchTimeout => .ok s.beaconSearchTimeout
  | .sendOneEnhancedBeacon => s.sendOneEnhancedBeacon
  | .purgeDsmeACT => .ok s.purgeDsmeACT
  | .startGTS superframeType superframeID idx alloc =>
    s.startGTS superframeType superframeID idx alloc
  | .endGTS _ => s.endGTS
  | .startSuperframe => s.startSuperframe
  | .startMultisuperframe superframeType => s.startMultisuperframe superframeType
  | .sendLegacyGroupAck => s.sendLegacyGroupAck
  | .sendEnhancedGroupAck => s.sendEnhancedGroupAck
  | .randomBackoffDelay => s.randomBackoffDelay
  | .canProceed => s.canProceed
  | .requestCCA => s.requestCCA
  | .deferCsmaTimeout => s.deferCsmaTimeout
  | .endCca => s.plmeCcaConfirm s.phy.sensed
  | .endTx => s.endTx

/-- Take event `i` out of the queue and run it. -/
def fire (i : ℕ) (s : Mac) : Exec Mac :=
  match s.sim.take i with
  | some (e, sim) => { s with sim }.dispatch e.event
  | none => .ok s

/-- Carry out an action. -/
def act (a : Action) (s : Mac) : Exec Mac :=
  match a with
  | .mcpsDataRequest params => s.mcpsDataRequest params
  | .mlmeStartRequest params pageOk channelOk => s.mlmeStartRequest params pageOk channelOk
  | .mlmeSyncRequest trackBcn => s.mlmeSyncRequest trackBcn
  | .pdDataIndication p fcsOk => s.pdDataIndication p fcsOk
  | .plmeSetTRXStateConfirm status => s.plmeSetTRXStateConfirm status
  | .ccaCancelled => (s.cancel .ccaRequest).plmeCcaConfirm .phyBusy
  | .addDsmeACTEntity superframeID entity => s.addDsmeACTEntity superframeID entity
  | .resizeScheduleGTSsEvent bcnOrder multisfrmOrd sfrmOrd =>
    s.resizeScheduleGTSsEvent bcnOrder multisfrmOrd sfrmOrd
  | .deallocate superframeID idx => .ok (s.deallocate superframeID idx)
  | .expire superframeID idx => .ok (s.expire superframeID idx)
  | .scheduleGts indication => s.scheduleGts indication
  | .purgeDsmeACT => .ok s.purgeDsmeACT
  | .fire i => s.fire i
  | .tick t => .ok { s with sim := ⟨t, s.sim.pending⟩ }

/-- When an action can happen.  The earliest events run first; time passes up to the next of
them; and the PHY gives up an assessment only outside `MAC_CSMA`, because every request for
the transmitter comes after the MAC has left that state. -/
def enabled (s : Mac) (i : Input) : Bool :=
  match i.action with
  | .fire n =>
    match s.sim.pending[n]? with
    | some e => s.sim.pending.all fun e' => e.time ≤ e'.time
    | none => false
  | .tick t => decide (s.sim.now ≤ t) && s.sim.pending.all fun e => t ≤ e.time
  | .ccaCancelled => s.macState != .macCsma && s.isRunning .ccaRequest
  | _ => true

/-- One step of a device. -/
def step (s : Mac) (i : Input) : Exec Mac := { s with phy := i.answers }.act i.action

/-- **The device.** -/
def machine : Machine Mac Input Fault where
  enabled s i := s.enabled i = true
  step := step

instance (s : Mac) (i : Input) : Decidable (machine.enabled s i) :=
  inferInstanceAs (Decidable (s.enabled i = true))

end Mac

end Ns3Dsme
