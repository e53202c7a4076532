import OpenBalenaVpn.Foundation.Http
import Mathlib.Algebra.Ring.Nat
import Mathlib.Data.List.Range

namespace OpenBalenaVpn

-- What is used of an object of the netmask package. There is a broadcast address for
-- masks up to /30 only.
structure Block where
  bitmask : Nat
  netLong : Nat
  size : Nat
  base : Text
  mask : Text
  first : Text
  last : Text
  broadcast : Option Text

-- Addresses as numbers and as texts.
structure Addresses where
  ip2long : Text → Nat
  long2ip : Nat → Text

-- The block of an address: the first and the last address of a host leave out the
-- network and the broadcast address.
def Addresses.block (addresses : Addresses) (net : Text) (mask : Nat) : Block :=
  let size := 2 ^ (32 - mask)
  let netLong := addresses.ip2long net / size * size
  { bitmask := mask
    netLong
    size
    base := addresses.long2ip netLong
    mask := addresses.long2ip (2 ^ 32 - size)
    first := addresses.long2ip (netLong + 1)
    last := addresses.long2ip (netLong + size - 2)
    broadcast := some (addresses.long2ip (netLong + size - 1)) }

-- The netmask package: its constructor, and `contains` of a block for another one.
structure Package extends Addresses where
  netmask : Text → Nat → Block
  contains : Block → Block → Bool

namespace Package

-- What is documented of the package: addresses are 32-bit numbers, and a block contains
-- what agrees with it in the bits of its mask.
structure Lawful (package : Package) : Prop where
  ip2long_lt : ∀ address, package.ip2long address < 2 ^ 32
  ip2long_long2ip : ∀ long, package.ip2long (package.long2ip long) = long % 2 ^ 32
  netmask_eq : ∀ net mask, mask ≤ 30 → package.netmask net mask = package.block net mask
  contains_iff : ∀ outer inner, package.contains outer inner = true ↔
    package.ip2long inner.base / outer.size = outer.netLong / outer.size ∧
      package.ip2long (inner.broadcast.getD inner.last) / outer.size =
        outer.netLong / outer.size

end Package

structure Netmask extends Block where
  second : Text
  third : Text

namespace Netmask

variable (package : Package)

def tooSmall (mask : Nat) : Text :=
  "Mask /".toList ++ Nat.toDigits 10 mask ++
    " is too small, 3 usable addresses are required.".toList

def construct (net : Text) (mask : Nat) : Netmask :=
  let block := package.netmask net mask
  { block with
    second := package.long2ip (package.ip2long block.first + 1)
    third := package.long2ip (package.ip2long block.first + 2) }

-- `new Netmask(net, mask)`
def new (net : Text) (mask : Nat) : Except Text Netmask :=
  if mask > 29 then .error (tooSmall mask) else .ok (construct package net mask)

def next (net : Netmask) (count : Nat) : Except Text Netmask :=
  new package (package.long2ip (net.netLong + net.size * count)) net.bitmask

-- The loop of `split`, which goes on while the block contains the net.
def splitLoop (whole : Netmask) : Nat → Netmask → Option (Except Text (List Netmask))
  | 0, _ => none
  | fuel + 1, net =>
      if package.contains whole.toBlock net.toBlock then
        match next package net 1 with
        | .error error => some (.error error)
        | .ok following => (splitLoop whole fuel following).map fun subnets =>
            subnets.map (net :: ·)
      else some (.ok [])

def split (fuel : Nat) (whole : Netmask) (mask : Nat) : Option (Except Text (List Netmask)) :=
  if mask < whole.bitmask then
    some (.error ("Cannot split /".toList ++ Nat.toDigits 10 whole.bitmask ++ " into /".toList ++
      Nat.toDigits 10 mask ++ ['!']))
  else if mask > 29 then some (.error (tooSmall mask))
  else match new package whole.base mask with
    | .error error => some (.error error)
    | .ok net => splitLoop package whole fuel net

end Netmask

section Blocks

variable {package : Package}

theorem construct_eq (h : package.Lawful) (net : Text) (mask : Nat) (hmask : mask ≤ 30) :
    (Netmask.construct package net mask).toBlock = package.block net mask :=
  h.netmask_eq net mask hmask

-- The sizes of a base block and of the subnets that it is split into.
theorem size_mul {base mask : Nat} (hle : base ≤ mask) (hmask : mask ≤ 32) :
    2 ^ (mask - base) * 2 ^ (32 - mask) = 2 ^ (32 - base) := by
  rw [← Nat.pow_add]
  congr 1
  omega

theorem block_netLong_mod (net : Text) (mask : Nat) :
    (package.block net mask).netLong % 2 ^ (32 - mask) = 0 :=
  Nat.mul_mod_left _ _

@[simp] theorem block_size (net : Text) (mask : Nat) :
    (package.block net mask).size = 2 ^ (32 - mask) := rfl

-- A block ends where the addresses end, or before.
theorem block_end_le (h : package.Lawful) (net : Text) (mask : Nat) (hmask : mask ≤ 32) :
    (package.block net mask).netLong + 2 ^ (32 - mask) ≤ 2 ^ 32 := by
  have hlt : package.ip2long net / 2 ^ (32 - mask) < 2 ^ mask := by
    rw [Nat.div_lt_iff_lt_mul (Nat.two_pow_pos _), ← Nat.pow_add, Nat.add_sub_cancel' hmask]
    exact h.ip2long_lt net
  have hmul := Nat.mul_le_mul_right (2 ^ (32 - mask)) (Nat.succ_le_of_lt hlt)
  rw [← Nat.pow_add, Nat.add_sub_cancel' hmask, Nat.succ_mul] at hmul
  exact hmul

theorem block_long2ip (h : package.Lawful) {long mask : Nat} (hlong : long < 2 ^ 32)
    (hmod : long % 2 ^ (32 - mask) = 0) : (package.block (package.long2ip long) mask).netLong =
      long := by
  have haligned := Nat.div_add_mod' long (2 ^ (32 - mask))
  rw [hmod, Nat.add_zero] at haligned
  simp only [Addresses.block, h.ip2long_long2ip, Nat.mod_eq_of_lt hlong, haligned]

end Blocks

section Dotted

-- Addresses in dotted decimal.
def dotted : Addresses where
  ip2long address :=
    (address.splitOn '.').foldl (fun long octet => long * 256 + Nat.ofDigitChars 10 octet 0) 0 %
      2 ^ 32
  long2ip long := ['.'].intercalate
    ([long / 2 ^ 24 % 256, long / 2 ^ 16 % 256, long / 2 ^ 8 % 256, long % 256].map
      (Nat.toDigits 10))

def dottedPackage : Package where
  toAddresses := dotted
  netmask := dotted.block
  contains outer inner :=
    dotted.ip2long inner.base / outer.size = outer.netLong / outer.size ∧
      dotted.ip2long (inner.broadcast.getD inner.last) / outer.size =
        outer.netLong / outer.size

theorem dot_notMem_toDigits (value : Nat) : '.' ∉ Nat.toDigits 10 value := by
  intro h
  have hdigit := Nat.isDigit_of_mem_toDigits (by omega) (by omega) h
  exact absurd hdigit (by decide)

theorem dotted_long2ip (long : Nat) : dotted.ip2long (dotted.long2ip long) = long % 2 ^ 32 := by
  have hsplit : (dotted.long2ip long).splitOn '.' =
      [long / 2 ^ 24 % 256, long / 2 ^ 16 % 256, long / 2 ^ 8 % 256, long % 256].map
        (Nat.toDigits 10) := by
    refine List.splitOn_intercalate '.' ?_ (List.cons_ne_nil _ _)
    intro octet ho
    obtain ⟨value, _, rfl⟩ := List.mem_map.mp ho
    exact dot_notMem_toDigits value
  have hdigits : ∀ value, Nat.ofDigitChars 10 (Nat.toDigits 10 value) 0 = value := fun value =>
    Nat.ofDigitChars_ten_toDigits
  change ((dotted.long2ip long).splitOn '.').foldl _ 0 % 2 ^ 32 = _
  rw [hsplit]
  simp only [List.map_cons, List.map_nil, List.foldl_cons, List.foldl_nil, hdigits]
  omega

theorem dottedPackage_lawful : dottedPackage.Lawful where
  ip2long_lt _ := Nat.mod_lt _ (Nat.two_pow_pos 32)
  ip2long_long2ip := dotted_long2ip
  netmask_eq _ _ _ := rfl
  contains_iff _ _ := decide_eq_true_iff

end Dotted

end OpenBalenaVpn
