namespace RightsPolicy.Store

def successor? (id : UInt64) : Option UInt64 :=
  if id.toNat + 1 < UInt64.size then some (id + 1) else none

theorem toNat_of_successor? {id next : UInt64} (h : successor? id = some next) :
    next.toNat = id.toNat + 1 := by
  unfold successor? at h
  split at h
  · rename_i hlt
    cases h
    rw [UInt64.toNat_add]
    exact Nat.mod_eq_of_lt hlt
  · simp at h

def leastFree? (isUsed : UInt64 → Bool) (id : UInt64) : Option UInt64 :=
  if isUsed id then
    match _h : successor? id with
    | some next => leastFree? isUsed next
    | none => none
  else
    some id
termination_by UInt64.size - id.toNat
decreasing_by
  have hnext := toNat_of_successor? _h
  have hlt : next.toNat < UInt64.size := next.toNat_lt
  omega

end RightsPolicy.Store
