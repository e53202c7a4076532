import OpenBalenaVpn.Netmask
import Mathlib.Order.Interval.Set.Defs

namespace OpenBalenaVpn

def Block.addresses (block : Block) : Set Nat :=
  Set.Ico block.netLong (block.netLong + block.size)

namespace Netmask

section Subnets

variable (package : Package) (net : Text) (base mask : Nat)

-- The subnets of a base block by position. The one after the last may start at zero.
def subnetAt (position : Nat) : Netmask :=
  construct package
    (package.long2ip ((package.block net base).netLong + position * 2 ^ (32 - mask))) mask

variable {package net base mask}

theorem block_toBlock_subnetAt (h : package.Lawful) (hmask : mask ≤ 29) (position : Nat) :
    (subnetAt package net base mask position).toBlock = package.block
      (package.long2ip ((package.block net base).netLong + position * 2 ^ (32 - mask))) mask :=
  construct_eq h _ mask (by omega)

theorem position_end_le (hle : base ≤ mask) (hmask : mask ≤ 29) {position : Nat}
    (hposition : position < 2 ^ (mask - base)) :
    position * 2 ^ (32 - mask) + 2 ^ (32 - mask) ≤ 2 ^ (32 - base) := by
  have hmul := Nat.mul_le_mul_right (2 ^ (32 - mask)) (Nat.succ_le_of_lt hposition)
  rw [size_mul hle (by omega), Nat.succ_mul] at hmul
  exact hmul

theorem subnet_aligned (hle : base ≤ mask) (hmask : mask ≤ 29) (position : Nat) :
    ((package.block net base).netLong + position * 2 ^ (32 - mask)) % 2 ^ (32 - mask) = 0 := by
  have hdvd : 2 ^ (32 - mask) ∣ 2 ^ (32 - base) := Nat.pow_dvd_pow 2 (by omega)
  have hbase : 2 ^ (32 - base) ∣ (package.block net base).netLong :=
    Nat.dvd_of_mod_eq_zero (block_netLong_mod net base)
  exact Nat.mod_eq_zero_of_dvd (Nat.dvd_add (Nat.dvd_trans hdvd hbase) (Nat.dvd_mul_left _ _))

theorem subnetAt_netLong (h : package.Lawful) (hle : base ≤ mask) (hmask : mask ≤ 29)
    {position : Nat} (hposition : position < 2 ^ (mask - base)) :
    (subnetAt package net base mask position).netLong =
      (package.block net base).netLong + position * 2 ^ (32 - mask) := by
  have hend := position_end_le hle hmask hposition
  have hwhole := block_end_le h net base (by omega)
  have hsize := Nat.two_pow_pos (32 - mask)
  rw [block_toBlock_subnetAt h hmask]
  exact block_long2ip h (by omega) (subnet_aligned hle hmask position)

theorem subnetAt_size (h : package.Lawful) (hmask : mask ≤ 29) (position : Nat) :
    (subnetAt package net base mask position).size = 2 ^ (32 - mask) := by
  rw [block_toBlock_subnetAt h hmask]
  rfl

theorem subnetAt_bitmask (h : package.Lawful) (hmask : mask ≤ 29) (position : Nat) :
    (subnetAt package net base mask position).bitmask = mask := by
  rw [block_toBlock_subnetAt h hmask]
  rfl

theorem next_subnetAt (h : package.Lawful) (hle : base ≤ mask) (hmask : mask ≤ 29)
    {position : Nat} (hposition : position < 2 ^ (mask - base)) :
    next package (subnetAt package net base mask position) 1 =
      .ok (subnetAt package net base mask (position + 1)) := by
  rw [next, subnetAt_netLong h hle hmask hposition, subnetAt_size h hmask,
    subnetAt_bitmask h hmask, new, if_neg (by omega), subnetAt, Nat.mul_one, Nat.add_assoc,
    ← Nat.succ_mul]

theorem subnet_disjoint (h : package.Lawful) (hle : base ≤ mask) (hmask : mask ≤ 29)
    {first second : Nat} (hfirst : first < 2 ^ (mask - base))
    (hsecond : second < 2 ^ (mask - base)) (hne : first ≠ second) :
    ∀ address ∈ (subnetAt package net base mask first).addresses,
      address ∉ (subnetAt package net base mask second).addresses := by
  intro address hf hs
  rw [Block.addresses, subnetAt_netLong h hle hmask hfirst,
    subnetAt_size h hmask, Set.mem_Ico] at hf
  rw [Block.addresses, subnetAt_netLong h hle hmask hsecond,
    subnetAt_size h hmask, Set.mem_Ico] at hs
  rcases Nat.lt_or_gt_of_ne hne with hlt | hgt
  · have hmul := Nat.mul_le_mul_right (2 ^ (32 - mask)) (Nat.succ_le_of_lt hlt)
    rw [Nat.succ_mul] at hmul
    omega
  · have hmul := Nat.mul_le_mul_right (2 ^ (32 - mask)) (Nat.succ_le_of_lt hgt)
    rw [Nat.succ_mul] at hmul
    omega

theorem subnet_subset (h : package.Lawful) (hle : base ≤ mask) (hmask : mask ≤ 29)
    {position : Nat} (hposition : position < 2 ^ (mask - base)) :
    (subnetAt package net base mask position).addresses ⊆
      (package.block net base).addresses := by
  have hend := position_end_le hle hmask hposition
  intro address ha
  rw [Block.addresses, subnetAt_netLong h hle hmask hposition,
    subnetAt_size h hmask, Set.mem_Ico] at ha
  rw [Block.addresses, block_size, Set.mem_Ico]
  omega

end Subnets

section Contains

variable {package : Package} {net : Text} {base mask : Nat}

theorem div_eq_of_within {start size address : Nat} (hsize : 0 < size) (hmod : start % size = 0)
    (hlow : start ≤ address) (hhigh : address < start + size) : address / size = start / size := by
  obtain ⟨quotient, rfl⟩ := Nat.dvd_of_mod_eq_zero hmod
  rw [Nat.mul_div_cancel_left quotient hsize, Nat.div_eq_iff hsize]
  constructor
  · rw [Nat.mul_comm]
    exact hlow
  · rw [Nat.mul_comm]
    omega

theorem contains_block_iff (h : package.Lawful) (outer : Block) (net : Text) {mask : Nat}
    (hmask : mask ≤ 32) : package.contains outer (package.block net mask) = true ↔
      (package.block net mask).netLong / outer.size = outer.netLong / outer.size ∧
        ((package.block net mask).netLong + 2 ^ (32 - mask) - 1) / outer.size =
          outer.netLong / outer.size := by
  have hend := block_end_le h net mask hmask
  have hsize := Nat.two_pow_pos (32 - mask)
  have hbase : package.ip2long (package.block net mask).base =
      (package.block net mask).netLong := by
    rw [← Nat.mod_eq_of_lt (show (package.block net mask).netLong < 2 ^ 32 by omega)]
    exact h.ip2long_long2ip _
  have hbroadcast : package.ip2long ((package.block net mask).broadcast.getD
      (package.block net mask).last) = (package.block net mask).netLong + 2 ^ (32 - mask) - 1 := by
    rw [← Nat.mod_eq_of_lt
      (show (package.block net mask).netLong + 2 ^ (32 - mask) - 1 < 2 ^ 32 by omega)]
    exact h.ip2long_long2ip _
  rw [h.contains_iff, hbase, hbroadcast]

theorem contains_subnetAt (h : package.Lawful) (hle : base ≤ mask) (hmask : mask ≤ 29)
    {position : Nat} (hposition : position < 2 ^ (mask - base)) :
    package.contains (package.block net base)
      (subnetAt package net base mask position).toBlock = true := by
  have hend := position_end_le hle hmask hposition
  have hsize := Nat.two_pow_pos (32 - mask)
  have hlong : (subnetAt package net base mask position).netLong = _ :=
    subnetAt_netLong h hle hmask hposition
  rw [block_toBlock_subnetAt h hmask] at hlong ⊢
  rw [contains_block_iff h _ _ (by omega), hlong, block_size]
  constructor
  · exact div_eq_of_within (Nat.two_pow_pos _) (block_netLong_mod net base) (by omega) (by omega)
  · exact div_eq_of_within (Nat.two_pow_pos _) (block_netLong_mod net base) (by omega) (by omega)

-- The net after the last subnet is the one after the block, or the one at zero.
theorem not_contains_subnetAt (h : package.Lawful) (hpos : 1 ≤ base) (hle : base ≤ mask)
    (hmask : mask ≤ 29) : package.contains (package.block net base)
      (subnetAt package net base mask (2 ^ (mask - base))).toBlock = false := by
  have hwhole := block_end_le h net base (by omega)
  have hsize := Nat.two_pow_pos (32 - base)
  have hhalf : 2 ^ (32 - base) < 2 ^ 32 := Nat.pow_lt_pow_right (by omega) (by omega)
  have hmod : (package.block net base).netLong % 2 ^ (32 - base) = 0 :=
    block_netLong_mod net base
  rw [block_toBlock_subnetAt h hmask, size_mul hle (by omega), ← Bool.not_eq_true,
    contains_block_iff h _ _ (by omega), block_size]
  rintro ⟨hdiv, -⟩
  have hwithin := Nat.div_add_mod' (package.block net base).netLong (2 ^ (32 - base))
  by_cases hlast : (package.block net base).netLong + 2 ^ (32 - base) = 2 ^ 32
  · -- the addresses have wrapped around, and a block at zero would be all of them
    have hzero : (package.block (package.long2ip ((package.block net base).netLong +
        2 ^ (32 - base))) mask).netLong = 0 := by
      rw [hlast]
      simp only [Addresses.block, h.ip2long_long2ip, Nat.mod_self, Nat.zero_div, Nat.zero_mul]
    rw [hzero, Nat.zero_div] at hdiv
    rw [← hdiv, hmod] at hwithin
    omega
  · have haligned : ((package.block net base).netLong + _) % _ = 0 :=
      subnet_aligned hle hmask (2 ^ (mask - base))
    rw [size_mul hle (by omega)] at haligned
    rw [block_long2ip h (by omega) haligned, Nat.add_div_right _ hsize] at hdiv
    omega

end Contains

section Split

variable {package : Package} {net : Text} {base mask : Nat}

def subnets (package : Package) (net : Text) (base mask : Nat) : List Netmask :=
  (List.range (2 ^ (mask - base))).map (subnetAt package net base mask)

theorem splitLoop_subnetAt (h : package.Lawful) (hpos : 1 ≤ base) (hle : base ≤ mask)
    (hmask : mask ≤ 29) {position remaining : Nat}
    (hremaining : position + remaining = 2 ^ (mask - base)) (fuel : Nat) :
    splitLoop package (construct package net base) (remaining + 1 + fuel)
        (subnetAt package net base mask position) =
      some (.ok ((List.range' position remaining).map (subnetAt package net base mask))) := by
  have hwhole : (construct package net base).toBlock = package.block net base :=
    construct_eq h net base (by omega)
  induction remaining generalizing position with
  | zero =>
      obtain rfl : position = 2 ^ (mask - base) := hremaining
      rw [Nat.add_right_comm, splitLoop, hwhole, not_contains_subnetAt h hpos hle hmask]
      rfl
  | succ remaining ih =>
      have hlt : position < 2 ^ (mask - base) := by omega
      rw [Nat.add_right_comm, splitLoop, hwhole, if_pos (contains_subnetAt h hle hmask hlt),
        next_subnetAt h hle hmask hlt]
      have hrest := @ih (position + 1) (by omega)
      simp only [hrest, Option.map_some, List.range'_succ, List.map_cons]
      rfl

-- With fuel for one round more than there are subnets.
theorem split_construct (h : package.Lawful) (hpos : 1 ≤ base) (hle : base ≤ mask)
    (hmask : mask ≤ 29) (fuel : Nat) :
    split package (2 ^ (mask - base) + 1 + fuel) (construct package net base) mask =
      some (.ok (subnets package net base mask)) := by
  have hwhole : (construct package net base).toBlock = package.block net base :=
    construct_eq h net base (by omega)
  have hfirst : construct package (package.block net base).base mask =
      subnetAt package net base mask 0 := by
    rw [subnetAt, Nat.zero_mul, Nat.add_zero]
    rfl
  have hloop : splitLoop package (construct package net base) _ _ = _ :=
    splitLoop_subnetAt h hpos hle hmask (Nat.zero_add _) fuel
  rw [split, hwhole,
    if_neg (show ¬mask < (package.block net base).bitmask from Nat.not_lt.mpr hle),
    if_neg (by omega), new, if_neg (by omega), hfirst, subnets, List.range_eq_range']
  exact hloop

end Split

end Netmask

end OpenBalenaVpn
