import OpenBalenaVpn.Netmask.Split
import Mathlib.Data.Set.Lattice

namespace OpenBalenaVpn

namespace Netmask

section Fuel

variable (package : Package)

-- More fuel does not change what the loop returns.
theorem splitLoop_add {whole net : Netmask} {fuel : Nat} {result : Except Text (List Netmask)}
    (h : splitLoop package whole fuel net = some result) (more : Nat) :
    splitLoop package whole (fuel + more) net = some result := by
  induction fuel generalizing net result with
  | zero => cases h
  | succ fuel ih =>
      rw [Nat.add_right_comm, splitLoop]
      rw [splitLoop] at h
      split at h
      · rename_i hcontains
        rw [if_pos hcontains]
        split at h
        · exact h
        · obtain ⟨rest, hrest, rfl⟩ := Option.map_eq_some_iff.mp h
          simp only [ih hrest, Option.map_some]
      · rename_i hcontains
        rw [if_neg hcontains]
        exact h

theorem split_add {whole : Netmask} {mask fuel : Nat} {result : Except Text (List Netmask)}
    (h : split package fuel whole mask = some result) (more : Nat) :
    split package (fuel + more) whole mask = some result := by
  unfold split at h ⊢
  split at h
  · rename_i hless
    rw [if_pos hless]
    exact h
  · rename_i hless
    rw [if_neg hless]
    split at h
    · rename_i hsmall
      rw [if_pos hsmall]
      exact h
    · rename_i hsmall
      rw [if_neg hsmall]
      split at h
      · exact h
      · exact splitLoop_add package h more

end Fuel

section Whole

variable {package : Package} {net : Text}

-- A block of all addresses contains every block.
theorem contains_all (h : package.Lawful) (inner : Block) :
    package.contains (package.block net 0) inner = true := by
  have hzero : ∀ address, package.ip2long address / 2 ^ 32 = 0 := fun address =>
    Nat.div_eq_of_lt (h.ip2long_lt address)
  have hnet : (package.block net 0).netLong / 2 ^ 32 = 0 := by
    simp only [Addresses.block, Nat.sub_zero, hzero, Nat.zero_mul, Nat.zero_div]
  rw [h.contains_iff, block_size, Nat.sub_zero, hnet]
  exact ⟨hzero _, hzero _⟩

-- So the loop goes on from any block, for ever.
theorem splitLoop_all (h : package.Lawful) (fuel : Nat) {inner : Netmask}
    (hinner : inner.bitmask ≤ 29) :
    splitLoop package (construct package net 0) fuel inner = none := by
  induction fuel generalizing inner with
  | zero => rfl
  | succ fuel ih =>
      have hwhole : (construct package net 0).toBlock = package.block net 0 :=
        construct_eq h net 0 (by omega)
      have hbits : ∀ address, (construct package address inner.bitmask).bitmask ≤ 29 := by
        intro address
        rw [construct_eq h address _ (by omega)]
        exact hinner
      rw [splitLoop, hwhole, if_pos (contains_all h _), next, new, if_neg (by omega)]
      simp only [ih (hbits _), Option.map_none]

theorem split_all (h : package.Lawful) {mask : Nat} (hmask : mask ≤ 29) (fuel : Nat) :
    split package fuel (construct package net 0) mask = none := by
  have hbits : (construct package (construct package net 0).base mask).bitmask ≤ 29 := by
    rw [construct_eq h _ mask (by omega)]
    exact hmask
  have hzero : (construct package net 0).bitmask = 0 := by
    rw [construct_eq h net 0 (by omega)]
    rfl
  rw [split, hzero, if_neg (Nat.not_lt_zero mask), if_neg (by omega), new, if_neg (by omega)]
  exact splitLoop_all h fuel hbits

end Whole

section Partition

-- The blocks of a mask that a whole block is made of, in the order of their addresses.
structure Partition (package : Package) (whole : Block) (mask : Nat) (subnets : List Netmask) :
    Prop where
  count : subnets.length = 2 ^ (mask - whole.bitmask)
  subnet : ∀ position (h : position < subnets.length),
    (subnets.get ⟨position, h⟩).toBlock =
      package.block (package.long2ip (whole.netLong + position * 2 ^ (32 - mask))) mask ∧
    (subnets.get ⟨position, h⟩).netLong = whole.netLong + position * 2 ^ (32 - mask)
  adjacent : ∀ position (h : position + 1 < subnets.length),
    (subnets.get ⟨position + 1, h⟩).netLong =
      (subnets.get ⟨position, Nat.lt_of_succ_lt h⟩).netLong +
        (subnets.get ⟨position, Nat.lt_of_succ_lt h⟩).size
  aligned : ∀ subnet ∈ subnets, subnet.netLong % subnet.size = 0
  disjoint : subnets.Pairwise fun first second =>
    ∀ address ∈ first.toBlock.addresses, address ∉ second.toBlock.addresses
  covers : ⋃ subnet ∈ subnets, subnet.toBlock.addresses = whole.addresses

variable {package : Package} {net : Text} {base mask : Nat}

theorem mem_subnets {subnet : Netmask} : subnet ∈ subnets package net base mask ↔
    ∃ position < 2 ^ (mask - base), subnetAt package net base mask position = subnet := by
  simp [subnets]

theorem subnets_cover (h : package.Lawful) (hle : base ≤ mask) (hmask : mask ≤ 29) :
    ⋃ subnet ∈ subnets package net base mask, subnet.toBlock.addresses =
      (package.block net base).addresses := by
  ext address
  simp only [Set.mem_iUnion, mem_subnets]
  constructor
  · rintro ⟨_, ⟨position, hposition, rfl⟩, ha⟩
    exact subnet_subset h hle hmask hposition ha
  · intro ha
    rw [Block.addresses, block_size, Set.mem_Ico] at ha
    have hsize := Nat.two_pow_pos (32 - mask)
    -- the position of the subnet that the offset of the address falls into
    have hposition : (address - (package.block net base).netLong) / 2 ^ (32 - mask) <
        2 ^ (mask - base) := by
      rw [Nat.div_lt_iff_lt_mul hsize, size_mul hle (by omega)]
      omega
    have hrest := Nat.div_add_mod' (address - (package.block net base).netLong) (2 ^ (32 - mask))
    have hless := Nat.mod_lt (address - (package.block net base).netLong) hsize
    refine ⟨_, ⟨_, hposition, rfl⟩, ?_⟩
    rw [Block.addresses, subnetAt_netLong h hle hmask hposition, subnetAt_size h hmask,
      Set.mem_Ico]
    omega

theorem partition_subnets (h : package.Lawful) (hle : base ≤ mask) (hmask : mask ≤ 29) :
    Partition package (package.block net base) mask (subnets package net base mask) := by
  have hlength : (subnets package net base mask).length = 2 ^ (mask - base) := by
    simp [subnets]
  have hget : ∀ position (hp : position < (subnets package net base mask).length),
      (subnets package net base mask).get ⟨position, hp⟩ =
        subnetAt package net base mask position := by
    intro position hp
    simp [subnets]
  refine ⟨hlength, ?_, ?_, ?_, ?_, subnets_cover h hle hmask⟩
  · intro position hp
    rw [hget position hp]
    exact ⟨block_toBlock_subnetAt h hmask position,
      subnetAt_netLong h hle hmask (hlength ▸ hp)⟩
  · intro position hp
    rw [hget _ hp, hget, subnetAt_netLong h hle hmask (hlength ▸ hp),
      subnetAt_netLong h hle hmask (hlength ▸ Nat.lt_of_succ_lt hp), subnetAt_size h hmask,
      Nat.succ_mul, Nat.add_assoc]
  · intro subnet hsubnet
    obtain ⟨position, hposition, rfl⟩ := mem_subnets.mp hsubnet
    rw [subnetAt_netLong h hle hmask hposition, subnetAt_size h hmask]
    exact subnet_aligned hle hmask position
  · rw [List.pairwise_iff_get]
    intro first second hlt
    rw [hget, hget]
    exact subnet_disjoint h hle hmask (hlength ▸ first.isLt) (hlength ▸ second.isLt)
      (Nat.ne_of_lt hlt)

end Partition

section Theorems

variable {package : Package}

theorem new_eq_ok {net : Text} {base : Nat} {whole : Netmask}
    (h : new package net base = .ok whole) : base ≤ 29 ∧ whole = construct package net base := by
  unfold new at h
  split at h
  · cases h
  · exact ⟨by omega, (Except.ok.inj h).symm⟩

-- Whatever `split` returns is a partition.
theorem split_partition (h : package.Lawful) {net : Text} {base mask : Nat} {whole : Netmask}
    (hnew : new package net base = .ok whole) (hle : base ≤ mask) (hmask : mask ≤ 29)
    {fuel : Nat} {result : Except Text (List Netmask)}
    (hsplit : split package fuel whole mask = some result) :
    ∃ subnets, result = .ok subnets ∧ Partition package whole.toBlock mask subnets := by
  obtain ⟨hbase, rfl⟩ := new_eq_ok hnew
  rcases Nat.eq_zero_or_pos base with rfl | hpos
  · rw [split_all h hmask] at hsplit
    cases hsplit
  · refine ⟨subnets package net base mask, ?_, ?_⟩
    · have hmore := split_add package hsplit (2 ^ (mask - base) + 1)
      rw [Nat.add_comm, split_construct h hpos hle hmask] at hmore
      exact (Option.some.inj hmore).symm
    · rw [construct_eq h net base (by omega)]
      exact partition_subnets h hle hmask

-- The last /25 of all addresses is split into four.
theorem split_partition_last :
    ∃ subnets, split dottedPackage 5 (construct dottedPackage "255.255.255.128".toList 25) 27 =
        some (.ok subnets) ∧
      Partition dottedPackage (dotted.block "255.255.255.128".toList 25) 27 subnets := by
  have hsplit : split dottedPackage 5 (construct dottedPackage "255.255.255.128".toList 25) 27 =
      some (.ok (subnets dottedPackage "255.255.255.128".toList 25 27)) :=
    split_construct dottedPackage_lawful (by omega) (by omega) (by omega) 0
  obtain ⟨subnets, hsubnets, hpartition⟩ := split_partition dottedPackage_lawful
    (show new dottedPackage "255.255.255.128".toList 25 = .ok _ from rfl) (by omega) (by omega)
    hsplit
  exact ⟨subnets, by rw [← hsubnets]; exact hsplit, hpartition⟩

-- `split` returns for every mask that it does not refuse exactly when the base mask is
-- not zero.
theorem split_returns_iff (h : package.Lawful) {net : Text} {base mask : Nat} {whole : Netmask}
    (hnew : new package net base = .ok whole) (hle : base ≤ mask) (hmask : mask ≤ 29) :
    (∃ fuel result, split package fuel whole mask = some result) ↔ 1 ≤ base := by
  obtain ⟨hbase, rfl⟩ := new_eq_ok hnew
  constructor
  · rintro ⟨fuel, result, hsplit⟩
    by_contra hzero
    obtain rfl : base = 0 := by omega
    rw [split_all h hmask] at hsplit
    cases hsplit
  · intro hpos
    exact ⟨_, _, split_construct h hpos hle hmask 0⟩

theorem split_returns_iff_half :
    ∃ fuel result, split dottedPackage fuel (construct dottedPackage "0.0.0.0".toList 1) 29 =
      some result :=
  (split_returns_iff dottedPackage_lawful
    (show new dottedPackage "0.0.0.0".toList 1 = .ok _ from rfl) (show 1 ≤ 29 by omega)
    (Nat.le_refl 29)).mpr (Nat.le_refl 1)

-- All addresses can be cut into halves without an end.
theorem split_endless :
    new dottedPackage "0.0.0.0".toList 0 = .ok (construct dottedPackage "0.0.0.0".toList 0) ∧
      ∀ fuel, split dottedPackage fuel (construct dottedPackage "0.0.0.0".toList 0) 1 = none :=
  ⟨rfl, split_all dottedPackage_lawful (show 1 ≤ 29 by omega)⟩

end Theorems

end Netmask

end OpenBalenaVpn
