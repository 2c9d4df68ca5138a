import LazyAS.AccessControlSingleApp

/-! `cn.fi.app.AccessControlMultiApp`: chooses an agent for every SSID that a station can be given.
The nodes of its lists are objects: `faultAP` holds the nodes themselves and not their addresses.
The sets `faultAP` and `ssidOnAP` are never emptied. -/
namespace LazyAS.AccessControlMultiApp
open WireText ControllerView
open HandoffApp (int32)
open AccessControlSingleApp (ApNode findRSSIByAPMAC)

/-- The array of a station's lists, one for each channel index. -/
abbrev Scan := Int → Option (List Ref)

structure App where
  apNodes : Ref → ApNode
  sta2ChannelScan : AList fun _ : Text => Scan := ∅
  faultAP : List Ref := []
  ssidOnAP : List Text := []

structure Selection where
  app : App
  dismark : AList fun _ : Text => Int := ∅
  agentHashtable : Option Table := none

variable (v : View) (order : Order)

/-- One entry in the loop of `checkFakeApfromCha`. Taking a node off the list by its address takes
nothing off. -/
def checkFakeAp (disSSID : List Text) (app : App) (ap : Ref) : App :=
  match v.agentMap (app.apNodes ap).apMAC with
  | none => app
  | some agent =>
      if getVapContainerIdle v agent ≤ 0 then app
      else if (v.agents agent).ssidSet.any disSSID.contains then app
      else { app with faultAP := app.faultAP.insert ap }

def checkFakeApfromCha (disSSID : List Text) (app : App) (list : List Ref) : App :=
  list.foldl (checkFakeAp v disSSID) app

def isBelow (dismark : AList fun _ : Text => Int) (pmark : Int) (ssid : Text) : Bool :=
  (dismark.lookup ssid).all (· < pmark)

def disAgentCheck (app : App) (agent : Ref) (dismark : AList fun _ : Text => Int) (pmark : Int) :
    App × Bool :=
  ({ app with
    ssidOnAP := (v.agents agent).ssidSet.foldl (fun known ssid => known.insert ssid) app.ssidOnAP },
    (v.agents agent).ssidSet.any (isBelow dismark pmark))

def offer (disSSID : List Text) (agent : Ref) (pmark : Int) (selection : Selection) (ssid : Text) :
    Selection :=
  if disSSID.contains ssid && isBelow selection.dismark pmark ssid then
    { selection with
      dismark := selection.dismark.insert ssid pmark
      agentHashtable :=
        if (v.agents agent).ssidSet.contains ssid then
          selection.agentHashtable.map fun table => table.insert ssid agent
        else selection.agentHashtable }
  else selection

def markOf (nodes : Ref → ApNode) (list : List Ref) (ap agent : Ref) : Int :=
  int32 (2 * findRSSIByAPMAC (list.map nodes) (nodes ap).apMAC -
    3 * ((v.agents agent).statCountSum - getVapContainerIdle v agent))

def changeNum (agent : Ref) (known : List Text) : Int :=
  if getVapContainerIdle v agent > known.length then known.length else getVapContainerIdle v agent

def considerAp (disSSID : List Text) (list : List Ref) (selection : Selection) (ap : Ref) :
    Selection :=
  match v.agentMap (selection.app.apNodes ap).apMAC with
  | none => selection
  | some agent =>
      if selection.app.faultAP.contains ap then selection
      else
        let pmark := markOf v selection.app.apNodes list ap agent
        let checked := disAgentCheck v selection.app agent selection.dismark pmark
        if checked.2 then
          let ssidOnAP := checked.1.ssidOnAP
          ((order.arrange ssidOnAP).take (changeNum v agent ssidOnAP).toNat).foldl
            (offer v disSSID agent pmark)
            { selection with
              app := checked.1, agentHashtable := some (selection.agentHashtable.getD ∅) }
        else { selection with app := checked.1 }

def considerChannel (disSSID : List Text) (scan : Scan) (selection : Selection) (index : Int) :
    Selection :=
  match scan index with
  | none => selection
  | some list =>
      list.foldl (considerAp v order disSSID list)
        { selection with app := checkFakeApfromCha v disSSID selection.app list }

/-- `channelAPSelecM2`; `none` is the exception when the station has no lists. -/
def channelAPSelecM2 (app : App) (staMAC : Text) (disSSID : List Text) : Option Selection :=
  (app.sta2ChannelScan.lookup staMAC).map fun scan =>
    ((List.range' 1 25).map Int.ofNat).foldl (considerChannel v order disSSID scan) { app }

end LazyAS.AccessControlMultiApp
