import LazyAS.CommandRuns

/-! The controller and one AP handler over their FIFO connection. The AP answers every frame
it receives, commands and echoed heartbeats alike, with the first four characters of the
frame, and numbers its own messages with a counter of its own. Frames arrive whole. -/
namespace LazyAS.ApLink
open WireText ControllerView Master SendBuffer CommandRuns

/-! `fnii_roam.c`. -/

/-- The globals `fnii_msg_idf` and `fnii_beat_info.beat_cseq`. -/
structure Ap where
  msgIdf : Nat := 0
  beatCseq : Nat := 0

def nextIdf (ap : Ap) : Nat := if ap.msgIdf + 1 > 9999 then 0 else ap.msgIdf + 1

/-- What the AP sends to the controller: replies with the id of the frame, heartbeats. -/
inductive Report where
  | ok (idf : Text)
  | err (idf : Text)
  | beat (cseq : Nat)
  deriving DecidableEq

def beatId (cseq : Nat) : Text := zeroPad 4 (cseq % 9999 : Nat)

def Report.text : Report → Text
  | .ok idf => idf ++ "100002OK".toList
  | .err idf => idf ++ "101003ERR".toList
  | .beat cseq => beatId cseq ++ "110000".toList

def frameType (frame : Text) : Int := atoi ((frame.drop 4).take 3) % 256

/-- ADD_VAP, DEL_VAP and OFFLINE_VAP, which have a handler in hostapd. -/
def isCommand (frame : Text) : Bool :=
  frameType frame = 102 || frameType frame = 103 || frameType frame = 117

def fniiHandleBeat (ap : Ap) (cseq : Int) : Bool := ((ap.beatCseq % 9999 : Nat) : Int) = cseq

/-- `fnii_parse_msg`, called with the length the frame announces; `result` is what the
command's handler returns. -/
def fniiParseMsg (ap : Ap) (frame : Text) (result : Bool) : Bool :=
  if atoi ((frame.drop 7).take 3) + 11 < 10 then false
  else if isCommand frame then result
  else if frameType frame = 110 then fniiHandleBeat ap (atoi (frame.take 4))
  else false

/-! The two ends together. -/

/-- The controller, the AP and what is under way between them. A frame carries the number of
its command, `executed` lists the commands whose handler returned `FNII_RET_OK` and `owner`
says which command stored the entry under a key. -/
structure Link where
  view : View
  commands : List Command
  ap : Ap
  down : List (Text × Option Nat)
  up : List Report
  executed : List Nat
  owner : Text → Option Nat

inductive Event where
  | op (op : Op)
  | write (index : Nat) (written : Bool)
  | put (n : Nat)
  | schedule (n : Nat)
  | check (n : Nat)
  | receive (written : Bool)
  | handle (result : Bool)
  | beat
  | report

structure Call where
  event : Event
  now : Int
  order : Order

/-- The operations of the controller that do not come from the connection. -/
def unlinked : Op → Bool
  | .ok _ _ | .err _ _ | .task _ _ | .check _ | .heartBeat _ _ _ => false
  | _ => true

def newFrames (before after : View) : List Text := (after.sent.drop before.sent.length).map Prod.snd

def forLink (v : View) (sc : Ref) (index : Nat) : Bool :=
  match v.tasks[index]? with
  | some task =>
      match taskAgent task with
      | some a => (v.agents a).sc = some sc
      | none => false
  | none => false

def Link.dispatch (st : Link) : Dispatch := ⟨st.view, st.commands⟩

def Link.advance (st : Link) (call : CommandRuns.Call) : Link :=
  let next := deliver st.dispatch call
  { st with view := next.view, commands := next.commands }

def exchange (sc : Ref) (st : Link) (call : Call) : Link :=
  let v := st.view
  match call.event with
  | .op op => if unlinked op then { st with view := step v call.now call.order op } else st
  | .write index written =>
      if forLink v sc index then
        let next := st.advance ⟨.write index written, call.now, call.order⟩
        -- the frame carries the number of the command it starts, if it starts one
        let label := if st.commands.length < next.commands.length then some st.commands.length
            else none
        { next with down := st.down ++ (newFrames v next.view).map fun frame => (frame, label) }
      else st
  | .put n =>
      let next := st.advance ⟨.put n, call.now, call.order⟩
      match st.commands[n]? with
      | none => st
      | some c =>
          if c.phase = .written then { next with owner := Function.update st.owner c.key (some n) }
            else st
  | .schedule n => st.advance ⟨.schedule n, call.now, call.order⟩
  | .check n => st.advance ⟨.check n, call.now, call.order⟩
  | .receive written =>
      match st.up with
      | [] => st
      | report :: rest =>
          match report with
          | .ok _ => { st with
              view := processMsgOk v call.now call.order sc report.text, up := rest }
          | .err _ => { st with view := processMsgErr v sc report.text, up := rest }
          | .beat _ =>
              let echoed := processMsgHeartBeat v call.now sc report.text written
              { st with
                view := echoed
                up := rest
                down := st.down ++ (newFrames v echoed).map fun frame => (frame, none) }
  | .handle result =>
      match st.down with
      | [] => st
      | (frame, label) :: rest =>
          -- every frame is answered, echoed heartbeats as well
          let accepted := fniiParseMsg st.ap frame result
          { st with
            ap := { st.ap with msgIdf := nextIdf st.ap }
            down := rest
            up := st.up ++ [if accepted then .ok (frame.take 4) else .err (frame.take 4)]
            executed := if accepted ∧ isCommand frame then st.executed ++ label.toList
              else st.executed }
  | .beat =>
      -- `fnii_send_msg_beat` remembers its id for the comparison with the echo
      let cseq := nextIdf st.ap
      { st with ap := ⟨cseq, cseq⟩, up := st.up ++ [.beat cseq] }
  | .report => { st with ap := { st.ap with msgIdf := nextIdf st.ap } }

def Link.start : Link := ⟨View.empty, [], {}, [], [], [], fun _ => none⟩

end LazyAS.ApLink
