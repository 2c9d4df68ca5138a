import LazyAS.WireText
import Mathlib.Logic.Function.Basic

/-! `cn.fi.obj.Redis`: the hashes in which the controller mirrors its stations and agents, each
under the address of its object. The hashes of the containers, the sets of container keys and
of SSIDs and the two lists of addresses are left out; they stand under other keys than a hash
of an address of twelve characters. So is the IP address of an agent. -/
namespace LazyAS.Redis
open WireText

inductive Field where
  | agentChannel | agentMode | agentVapSet | agentSsidSet
  | staStatus | staSumUpTraffic | staSumDownTraffic | staUpTraffic | staDownTraffic
  | staVapContainerSet | staWorkingVapContainer
  deriving DecidableEq, Repr

/-- The hash under each key; `none` where the key does not exist. -/
abbrev Hashes := Text → Option (Field → Option Text)

variable (redis : Hashes)

def hget (key : Text) (field : Field) : Option Text := (redis key).bind fun hash => hash field

def hset (key : Text) (field : Field) (value : Text) : Hashes :=
  Function.update redis key
    (some (Function.update ((redis key).getD fun _ => none) field (some value)))

def del (key : Text) : Hashes := Function.update redis key none

def hsetKnown (key : Text) (field : Field) (value : Text) : Hashes :=
  if (redis key).isSome then hset redis key field value else redis

theorem hget_hset (key key' : Text) (field field' : Field) (value : Text) :
    hget (hset redis key field value) key' field' =
      if key' = key ∧ field' = field then some value else hget redis key' field' := by
  unfold hget hset
  by_cases same : key' = key
  · subst same
    rw [Function.update_self, Option.bind_some]
    by_cases here : field' = field
    · subst here
      simp
    · rw [Function.update_of_ne here, if_neg (fun both => here both.2)]
      cases redis key' with
      | none => rfl
      | some hash => rfl
  · rw [Function.update_of_ne same, if_neg (fun both => same both.1)]

theorem hget_del (key key' : Text) (field : Field) :
    hget (del redis key) key' field = if key' = key then none else hget redis key' field := by
  unfold hget del
  by_cases same : key' = key
  · subst same
    simp
  · rw [Function.update_of_ne same, if_neg same]

theorem hget_hsetKnown (key key' : Text) (field field' : Field) (value : Text) :
    hget (hsetKnown redis key field value) key' field' =
      if (key' = key ∧ field' = field) ∧ (redis key).isSome then some value
        else hget redis key' field' := by
  unfold hsetKnown
  split
  · rename_i known
    simp only [hget_hset, known, and_true]
  · rename_i unknown
    rw [if_neg (fun both => unknown both.2)]

theorem isSome_hsetKnown (key key' : Text) (field : Field) (value : Text) :
    (hsetKnown redis key field value key').isSome = (redis key').isSome := by
  unfold hsetKnown
  split
  · rename_i known
    by_cases same : key' = key
    · subst same
      simp [hset, known]
    · rw [hset, Function.update_of_ne same]
  · rfl

theorem isSome_of_hget {key value : Text} {field : Field}
    (found : hget redis key field = some value) :
    (redis key).isSome = true := by
  cases known : redis key with
  | none => simp [hget, known] at found
  | some hash => rfl

def decimal (number : Int) : Text :=
  if number < 0 then '-' :: Nat.toDigits 10 number.natAbs else Nat.toDigits 10 number.natAbs

def long (number : Int64) : Text := decimal number.toInt

theorem long_zero : long 0 = ['0'] := by decide

def addAgent (macAddr channel mode : Text) : Hashes :=
  let channelSet := hset redis macAddr .agentChannel channel
  let modeSet := hset channelSet macAddr .agentMode mode
  let vapSet := hset modeSet macAddr .agentVapSet (macAddr ++ "agentVapSet".toList)
  hset vapSet macAddr .agentSsidSet (macAddr ++ "agentSsidSet".toList)

/-- A hash that exists is deleted with the set that one of its fields names. -/
def delWithSet (key : Text) (field : Field) : Hashes :=
  if (redis key).isSome then
    let cleared := match hget redis key field with
      | none => redis
      | some set => del redis set
    del cleared key
  else redis

def delAgent (agentMacAddr : Text) : Hashes := delWithSet redis agentMacAddr .agentSsidSet

def addStation (staMacAddr status : Text) : Hashes :=
  let statusSet := hset redis staMacAddr .staStatus status
  let sumUp := hset statusSet staMacAddr .staSumUpTraffic "0".toList
  let sumDown := hset sumUp staMacAddr .staSumDownTraffic "0".toList
  let up := hset sumDown staMacAddr .staUpTraffic "0".toList
  let down := hset up staMacAddr .staDownTraffic "0".toList
  let vapSet := hset down staMacAddr .staVapContainerSet (staMacAddr ++ "staVapContainerSet".toList)
  hset vapSet staMacAddr .staWorkingVapContainer []

def delStation (staMacAddr : Text) : Hashes := delWithSet redis staMacAddr .staVapContainerSet

theorem hget_addAgent_of_ne {macAddr key : Text} (channel mode : Text) (field : Field)
    (other : key ≠ macAddr) :
    hget (addAgent redis macAddr channel mode) key field = hget redis key field := by
  simp [addAgent, hget_hset, other]

theorem hget_addStation_of_ne {staMacAddr key : Text} (status : Text) (field : Field)
    (other : key ≠ staMacAddr) :
    hget (addStation redis staMacAddr status) key field = hget redis key field := by
  simp [addStation, hget_hset, other]

theorem hget_delWithSet_of_ne {key other : Text} {field : Field} (field' : Field)
    (away : other ≠ key) (apart : ∀ set, hget redis key field = some set → other ≠ set) :
    hget (delWithSet redis key field) other field' = hget redis other field' := by
  unfold delWithSet
  split
  · cases named : hget redis key field with
    | none => exact (hget_del redis key other field').trans (if_neg away)
    | some set =>
        dsimp only
        rw [hget_del, if_neg away, hget_del, if_neg (apart set named)]
  · rfl

theorem hget_of_delWithSet {key other text : Text} {field field' : Field}
    (found : hget (delWithSet redis key field) other field' = some text) :
    hget redis other field' = some text := by
  unfold delWithSet at found
  split at found
  · dsimp only at found
    rw [hget_del] at found
    split at found
    · cases found
    · split at found
      · exact found
      · rw [hget_del] at found
        split at found
        · cases found
        · exact found
  · exact found

end LazyAS.Redis
