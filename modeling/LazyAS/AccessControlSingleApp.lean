import LazyAS.HandoffApp
import LazyAS.DualBandAccessControl

/-! `cn.fi.app.AccessControlSingleApp`: keeps how strong every agent has heard a station on every
channel and assigns the station to the best one. An exception ends `handle` where it is thrown.
`now` is the time of the call. -/
namespace LazyAS.AccessControlSingleApp
open WireText ControllerView
open HandoffApp (int32 channeltoIndex inBounds allChannel waitTimeout)
open DualBandAccessControl (ProbeInfoMessage AddVap)

structure ApNode where
  apMAC : Text
  scan : Int
  RSSI : Int
  date : Int
  deriving DecidableEq

structure ChaList where
  list : List ApNode := []
  date : Int
  deriving DecidableEq

abbrev Scan := Int → Option ChaList

structure App where
  sta2ChannelScan : AList fun _ : Text => Scan := ∅
  timeout : Option Int := none

variable (v : View) (now : Int) (order : Order)

def preferred (rssi channel : Int) : Int :=
  if channeltoIndex channel < 14 then rssi else int32 (rssi + 500)

def reheard (ap : ApNode) (rssi channel : Int) : ApNode :=
  let updated :=
    if now - ap.date < 3000 ∧ rssi > ap.RSSI then { ap with RSSI := preferred rssi channel }
    else if now - ap.date > 3000 then
      { ap with date := now, scan := 1, RSSI := preferred rssi channel }
    else ap
  { updated with scan := updated.scan + 1, date := now }

def addAP (mac : Text) (rssi channel : Int) : List ApNode → List ApNode
  | [] => [⟨mac, 1, if channeltoIndex channel < 14 then rssi else int32 (rssi + 50), now⟩]
  | ap :: rest => if ap.apMAC = mac then reheard now ap rssi channel :: rest
      else ap :: addAP mac rssi channel rest

def findRSSIByAPMAC (list : List ApNode) (mac : Text) : Int :=
  match list.find? fun ap => ap.apMAC = mac with
  | some ap => ap.RSSI
  | none => 0

def minint : Int := -2 ^ 31

/-- One entry in the loop of `channelAPSelecM2`. An agent that is gone or has no room is passed
over; taking it off the list by its address takes nothing off. -/
def consider (list : List ApNode) (best : Int × Option Ref) (ap : ApNode) : Int × Option Ref :=
  match v.agentMap ap.apMAC with
  | none => best
  | some agent =>
      if getVapContainerIdle v agent = 0 then best
      else
        let num := getVapContainerOnline v agent + getVapContainerOnline v agent
        let pmark := int32 (2 * findRSSIByAPMAC list ap.apMAC - 3 * num)
        if best.1 = minint ∨ pmark > best.1 then (pmark, some agent) else best

/-- `channelAPSelecM2`: the list it returns has at most one agent. -/
def channelAPSelecM2 (scan : Scan) : Option Ref :=
  ((List.range' 1 25).foldl (fun best index => match scan index with
    | none => best
    | some cha => cha.list.foldl (consider v cha.list) best) (minint, none)).2

/-- The scan table of a station with the probe added; `none` for a channel outside of the array. -/
def scanned (scan : Scan) (msg : ProbeInfoMessage) : Option Scan :=
  let index := channeltoIndex msg.channel
  if inBounds index then
    let cha := (scan index).getD { date := now }
    some (Function.update scan index
      (some { cha with
        list := addAP now (v.agents msg.agent).macAddress msg.rssi msg.channel cha.list }))
  else none

/-- The end of `handle` for one station: lists that are too old go, and with them a station that
was not heard for as long. -/
def expire (scan : Scan) : Option Scan :=
  let indices : List Int := (List.range' 1 25).map Int.ofNat
  let lasttime := indices.foldl (fun last index => match scan index with
    | none => last
    | some cha => if last < cha.date ∨ last = 0 then cha.date else last) 0
  if now - lasttime > waitTimeout * 1000 then none
  else some fun index => match scan index with
    | none => none
    | some cha =>
        if index ∈ indices ∧ now - cha.date > waitTimeout * 1000 then none else some cha

def cleanUp (app : App) : App :=
  if app.timeout.all (fun timeout => now - timeout > waitTimeout * 1000) then
    { sta2ChannelScan := app.sta2ChannelScan.keys.foldl (fun table sta =>
        if (v.stationMap.lookup sta).isSome then
          match (table.lookup sta).bind (expire now) with
          | none => table.erase sta
          | some scan => table.insert sta scan
        else table) app.sta2ChannelScan
      timeout := some now }
  else app

structure Handled where
  app : App
  calls : List AddVap := []
  returned : Bool := true

/-- `agent.getSsidSet().iterator().next()` of the agent that sent the probe. -/
def firstSsid (msg : ProbeInfoMessage) : Option Text :=
  (order.arrange (v.agents msg.agent).ssidSet).head?

def handle (app : App) (msg : ProbeInfoMessage) : Handled :=
  let known := (app.sta2ChannelScan.lookup msg.staMacAddr).getD fun _ => none
  match scanned v now known msg with
  | none => { app := { app with
      sta2ChannelScan := app.sta2ChannelScan.insert msg.staMacAddr known }, returned := false }
  | some scan =>
      let heard := { app with sta2ChannelScan := app.sta2ChannelScan.insert msg.staMacAddr scan }
      match channelAPSelecM2 v scan with
      | none => { app := cleanUp v now heard }
      | some agent =>
          match firstSsid v order msg with
          | none => { app := heard, returned := false }
          | some ssid => { app := cleanUp v now heard,
                           calls := [⟨agent, msg.staMacAddr, msg.mode, ssid⟩] }

def handle1 (app : App) (staMacAddr : Text) : App :=
  { app with sta2ChannelScan := app.sta2ChannelScan.erase staMacAddr }

end LazyAS.AccessControlSingleApp
