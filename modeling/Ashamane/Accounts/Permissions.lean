import Mathlib.Data.List.AList
import Ashamane.Lib.Worklist

/-! The permissions of an account: what is granted and denied, with all that is linked to it. -/
namespace Ashamane.Accounts
open Ashamane.Lib

abbrev RBACPermissionContainer : Type := Finset Nat

structure RBACPermission where
  id : Nat
  perms : RBACPermissionContainer

structure AccountMgr where
  permissions : AList fun _ : Nat => RBACPermission
  defaultPermissions : UInt8 → RBACPermissionContainer

def AccountMgr.getRBACPermission (mgr : AccountMgr) (permissionId : Nat) : Option RBACPermission :=
  mgr.permissions.lookup permissionId

def AccountMgr.graph (mgr : AccountMgr) : Worklist.Graph Nat where
  links permissionId := (mgr.getRBACPermission permissionId).map RBACPermission.perms
  known := mgr.permissions.keys.toFinset
  mem_known permissionId h := by
    rw [Option.isSome_map] at h
    exact List.mem_toFinset.2 (AList.lookup_isSome.1 h)

theorem AccountMgr.links_of_none {mgr : AccountMgr} {permissionId : Nat}
    (h : mgr.getRBACPermission permissionId = none) : mgr.graph.links permissionId = none := by
  simp only [AccountMgr.graph, h, Option.map_none]

theorem AccountMgr.links_of_some {mgr : AccountMgr} {permissionId : Nat}
    {permission : RBACPermission} (h : mgr.getRBACPermission permissionId = some permission) :
    mgr.graph.links permissionId = some permission.perms := by
  simp only [AccountMgr.graph, h, Option.map_some]

/-- `*toCheck.begin()` -/
def begin (permissions : RBACPermissionContainer) : Option Nat := (permissions.sort (· ≤ ·)).head?

theorem begin_eq_none {permissions : RBACPermissionContainer} (h : begin permissions = none) :
    permissions = ∅ := by
  rw [begin, List.head?_eq_none_iff, ← List.length_eq_zero_iff, Finset.length_sort] at h
  exact Finset.card_eq_zero.1 h

theorem mem_of_begin {permissions : RBACPermissionContainer} {permissionId : Nat}
    (h : begin permissions = some permissionId) : permissionId ∈ permissions :=
  (Finset.mem_sort (· ≤ ·)).1 (List.mem_of_head? h)

/-- The loop of `ExpandPermissions`. It ends, however the permissions are linked. -/
def expandLoop (mgr : AccountMgr) (toCheck permissions : RBACPermissionContainer) :
    RBACPermissionContainer :=
  match _hbegin : begin toCheck with
  | none => permissions
  | some permissionId =>
    match _hpermission : mgr.getRBACPermission permissionId with
    | none => expandLoop mgr (toCheck.erase permissionId) permissions
    | some permission =>
      expandLoop mgr
        (toCheck.erase permissionId ∪ permission.perms.filter (· ∉ insert permissionId permissions))
        (insert permissionId permissions)
termination_by Worklist.size mgr.graph toCheck permissions
decreasing_by
  · exact Worklist.size_drop_lt (mem_of_begin _hbegin)
  · exact Worklist.size_take_lt (mem_of_begin _hbegin) (AccountMgr.links_of_some _hpermission)

def expandPermissions (mgr : AccountMgr) (permissions : RBACPermissionContainer) :
    RBACPermissionContainer := expandLoop mgr permissions ∅

theorem mem_expandLoop {mgr : AccountMgr} {start toCheck permissions : RBACPermissionContainer}
    (h : Worklist.Explores mgr.graph start toCheck permissions) (permissionId : Nat) :
    permissionId ∈ expandLoop mgr toCheck permissions ↔ mgr.graph.Reached start permissionId := by
  fun_induction expandLoop mgr toCheck permissions with
  | case1 toCheck permissions hbegin =>
    rw [begin_eq_none hbegin] at h
    exact h.mem_done_iff permissionId
  | case2 toCheck permissions next hbegin hpermission ih =>
    exact ih (h.drop (AccountMgr.links_of_none hpermission))
  | case3 toCheck permissions next hbegin permission hpermission ih =>
    exact ih (h.take (mem_of_begin hbegin) (AccountMgr.links_of_some hpermission))

theorem mem_expandPermissions (mgr : AccountMgr) (permissions : RBACPermissionContainer)
    (permissionId : Nat) :
    permissionId ∈ expandPermissions mgr permissions ↔
      mgr.graph.Reached permissions permissionId :=
  mem_expandLoop .begin permissionId

inductive RBACCommandResult
  | ok
  | cantAddAlreadyAdded
  | cantRevokeNotInList
  | inGrantedList
  | inDeniedList
  | idDoesNotExists
  deriving DecidableEq, Repr

inductive RBACStatement
  | insert (accountId permission : Nat) (granted : Bool) (realmId : Int32)
  | delete (accountId permission : Nat) (realmId : Int32)
  deriving DecidableEq, Repr

structure RBACData where
  id : Nat
  secLevel : UInt8
  grantedPerms : RBACPermissionContainer
  deniedPerms : RBACPermissionContainer
  globalPerms : RBACPermissionContainer
  executed : List RBACStatement

namespace RBACData
variable (mgr : AccountMgr) (data : RBACData)

def new (id : Nat) (secLevel : UInt8) : RBACData := ⟨id, secLevel, ∅, ∅, ∅, []⟩

def calculateNewPermissions : RBACData :=
  { data with
    globalPerms :=
      expandPermissions mgr data.grantedPerms \ expandPermissions mgr data.deniedPerms }

def savePermission (permission : Nat) (granted : Bool) (realmId : Int32) : RBACData :=
  { data with executed := data.executed ++ [.insert data.id permission granted realmId] }

def deleteSaved (permission : Nat) (realmId : Int32) : RBACData :=
  { data with executed := data.executed ++ [.delete data.id permission realmId] }

def grantPermission (permissionId : Nat) (realmId : Int32) : RBACCommandResult × RBACData :=
  if mgr.getRBACPermission permissionId = none then (.idDoesNotExists, data)
  else if permissionId ∈ data.deniedPerms then (.inDeniedList, data)
  else if permissionId ∈ data.grantedPerms then (.cantAddAlreadyAdded, data)
  else
    let data := { data with grantedPerms := insert permissionId data.grantedPerms }
    if realmId ≠ 0 then
      (.ok, (data.savePermission permissionId true realmId).calculateNewPermissions mgr)
    else (.ok, data)

def denyPermission (permissionId : Nat) (realmId : Int32) : RBACCommandResult × RBACData :=
  if mgr.getRBACPermission permissionId = none then (.idDoesNotExists, data)
  else if permissionId ∈ data.grantedPerms then (.inGrantedList, data)
  else if permissionId ∈ data.deniedPerms then (.cantAddAlreadyAdded, data)
  else
    let data := { data with deniedPerms := insert permissionId data.deniedPerms }
    if realmId ≠ 0 then
      (.ok, (data.savePermission permissionId false realmId).calculateNewPermissions mgr)
    else (.ok, data)

def revokePermission (permissionId : Nat) (realmId : Int32) : RBACCommandResult × RBACData :=
  if permissionId ∉ data.grantedPerms ∧ permissionId ∉ data.deniedPerms then
    (.cantRevokeNotInList, data)
  else
    let data :=
      { data with
        grantedPerms := data.grantedPerms.erase permissionId
        deniedPerms := data.deniedPerms.erase permissionId }
    if realmId ≠ 0 then
      (.ok, (data.deleteSaved permissionId realmId).calculateNewPermissions mgr)
    else (.ok, data)

def clearData : RBACData :=
  { data with
    grantedPerms := ∅
    deniedPerms := ∅
    globalPerms := ∅ }

def loadFromDBCallback (result : List (Nat × Bool)) : RBACData :=
  let data := result.foldl (fun data fields =>
    if fields.2 then (data.grantPermission mgr fields.1 0).2
    else (data.denyPermission mgr fields.1 0).2) data
  let permissions := mgr.defaultPermissions data.secLevel
  let data := (permissions.sort (· ≤ ·)).foldl
    (fun data permissionId => (data.grantPermission mgr permissionId 0).2) data
  data.calculateNewPermissions mgr

def loadFromDB (result : List (Nat × Bool)) : RBACData :=
  data.clearData.loadFromDBCallback mgr result

def loadFromDBAsync : RBACData := data.clearData

def setSecurityLevel (id : UInt8) (result : List (Nat × Bool)) : RBACData :=
  { data with secLevel := id }.loadFromDB mgr result

end RBACData

inductive Request
  | grant (permissionId : Nat) (realmId : {realmId : Int32 // realmId ≠ 0})
  | deny (permissionId : Nat) (realmId : {realmId : Int32 // realmId ≠ 0})
  | revoke (permissionId : Nat) (realmId : {realmId : Int32 // realmId ≠ 0})
  | loadFromDB (result : List (Nat × Bool))
  | loadFromDBAsync
  | loadFromDBCallback (result : List (Nat × Bool))
  | setSecurityLevel (id : UInt8) (result : List (Nat × Bool))

namespace RBACData
variable (mgr : AccountMgr) {data : RBACData}

def handle (data : RBACData) : Request → RBACData
  | .grant permissionId realmId => (data.grantPermission mgr permissionId realmId).2
  | .deny permissionId realmId => (data.denyPermission mgr permissionId realmId).2
  | .revoke permissionId realmId => (data.revokePermission mgr permissionId realmId).2
  | .loadFromDB result => data.loadFromDB mgr result
  | .loadFromDBAsync => data.loadFromDBAsync
  | .loadFromDBCallback result => data.loadFromDBCallback mgr result
  | .setSecurityLevel id result => data.setSecurityLevel mgr id result

def run (data : RBACData) (requests : List Request) : RBACData := requests.foldl (handle mgr) data

structure Right (data : RBACData) : Prop where
  global : ∀ permissionId, permissionId ∈ data.globalPerms ↔
    mgr.graph.Reached data.grantedPerms permissionId ∧
      ¬mgr.graph.Reached data.deniedPerms permissionId
  disjoint : Disjoint data.grantedPerms data.deniedPerms

variable {mgr}

theorem right_new (id : Nat) (secLevel : UInt8) : Right mgr (new id secLevel) where
  global _ := iff_of_false (Finset.notMem_empty _) fun h => Worklist.Graph.not_reached_empty h.1
  disjoint := Finset.disjoint_empty_left _

theorem right_clearData : Right mgr data.clearData where
  global _ := iff_of_false (Finset.notMem_empty _) fun h => Worklist.Graph.not_reached_empty h.1
  disjoint := Finset.disjoint_empty_left _

theorem right_calculateNewPermissions (h : Disjoint data.grantedPerms data.deniedPerms) :
    Right mgr (data.calculateNewPermissions mgr) where
  global permissionId := by
    rw [calculateNewPermissions, Finset.mem_sdiff, mem_expandPermissions, mem_expandPermissions]
  disjoint := h

theorem foldl_disjoint {α : Type*} {f : RBACData → α → RBACData} (l : List α)
    (hf : ∀ a data, Disjoint data.grantedPerms data.deniedPerms →
      Disjoint (f data a).grantedPerms (f data a).deniedPerms)
    (h : Disjoint data.grantedPerms data.deniedPerms) :
    Disjoint (l.foldl f data).grantedPerms (l.foldl f data).deniedPerms := by
  induction l generalizing data with
  | nil => exact h
  | cons a l ih => exact ih (hf a data h)

theorem grantPermission_disjoint (h : Disjoint data.grantedPerms data.deniedPerms)
    (permissionId : Nat) (realmId : Int32) :
    Disjoint (data.grantPermission mgr permissionId realmId).2.grantedPerms
      (data.grantPermission mgr permissionId realmId).2.deniedPerms := by
  unfold grantPermission
  split_ifs with hnone hdenied
  · exact h
  · exact h
  · exact h
  all_goals exact Finset.disjoint_insert_left.2 ⟨hdenied, h⟩

theorem denyPermission_disjoint (h : Disjoint data.grantedPerms data.deniedPerms)
    (permissionId : Nat) (realmId : Int32) :
    Disjoint (data.denyPermission mgr permissionId realmId).2.grantedPerms
      (data.denyPermission mgr permissionId realmId).2.deniedPerms := by
  unfold denyPermission
  split_ifs with hnone hgranted
  · exact h
  · exact h
  · exact h
  all_goals exact Finset.disjoint_insert_right.2 ⟨hgranted, h⟩

theorem Right.grantPermission (h : Right mgr data) (permissionId : Nat) {realmId : Int32}
    (hrealm : realmId ≠ 0) : Right mgr (data.grantPermission mgr permissionId realmId).2 := by
  unfold RBACData.grantPermission
  split_ifs with hnone hdenied hgranted
  · exact h
  · exact h
  · exact h
  · exact right_calculateNewPermissions (Finset.disjoint_insert_left.2 ⟨hdenied, h.disjoint⟩)

theorem Right.denyPermission (h : Right mgr data) (permissionId : Nat) {realmId : Int32}
    (hrealm : realmId ≠ 0) : Right mgr (data.denyPermission mgr permissionId realmId).2 := by
  unfold RBACData.denyPermission
  split_ifs with hnone hgranted hdenied
  · exact h
  · exact h
  · exact h
  · exact right_calculateNewPermissions (Finset.disjoint_insert_right.2 ⟨hgranted, h.disjoint⟩)

theorem Right.revokePermission (h : Right mgr data) (permissionId : Nat) {realmId : Int32}
    (hrealm : realmId ≠ 0) : Right mgr (data.revokePermission mgr permissionId realmId).2 := by
  unfold RBACData.revokePermission
  split_ifs with hnone
  · exact h
  · exact right_calculateNewPermissions
      (h.disjoint.mono (Finset.erase_subset _ _) (Finset.erase_subset _ _))

/-- Rows that name one permission twice do not grant and deny it, nor does a default permission. -/
theorem right_loadFromDBCallback (h : Disjoint data.grantedPerms data.deniedPerms)
    (result : List (Nat × Bool)) : Right mgr (data.loadFromDBCallback mgr result) := by
  refine right_calculateNewPermissions ?_
  refine foldl_disjoint _ (fun permissionId _ h => grantPermission_disjoint h permissionId 0) ?_
  refine foldl_disjoint _ (fun fields data h => ?_) h
  split
  · exact grantPermission_disjoint h fields.1 0
  · exact denyPermission_disjoint h fields.1 0

theorem Right.handle (h : Right mgr data) (r : Request) : Right mgr (data.handle mgr r) := by
  cases r with
  | grant permissionId realmId => exact h.grantPermission permissionId realmId.2
  | deny permissionId realmId => exact h.denyPermission permissionId realmId.2
  | revoke permissionId realmId => exact h.revokePermission permissionId realmId.2
  | loadFromDB result => exact right_loadFromDBCallback (Finset.disjoint_empty_left _) result
  | loadFromDBAsync => exact right_clearData
  | loadFromDBCallback result => exact right_loadFromDBCallback h.disjoint result
  | setSecurityLevel id result =>
    exact right_loadFromDBCallback (Finset.disjoint_empty_left _) result

/-- After any loads and commands an account has exactly the permissions that are reached from what
is granted and not from what is denied. -/
theorem run_right (mgr : AccountMgr) (id : Nat) (secLevel : UInt8) (requests : List Request) :
    Right mgr (run mgr (new id secLevel) requests) := by
  have hstep : ∀ (requests : List Request) (data : RBACData),
      Right mgr data → Right mgr (run mgr data requests) := by
    intro requests
    induction requests with
    | nil => exact fun _ h => h
    | cons r requests ih => exact fun data h => ih _ (h.handle r)
  exact hstep requests _ (right_new id secLevel)

end RBACData

end Ashamane.Accounts
