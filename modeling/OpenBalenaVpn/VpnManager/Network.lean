import OpenBalenaVpn.Netmask.Split
import Mathlib.Data.Nat.Log

namespace OpenBalenaVpn.VpnManager

section Config

-- The settings of the instances, as the environment gives them.
structure Config where
  VPN_BASE_IP : Text
  VPN_BASE_MASK : Nat
  VPN_INSTANCE_COUNT : Nat
  instanceSubnetBitmask : Option Nat
  VPN_BASE_PORT : Nat
  VPN_BASE_MANAGEMENT_PORT : Nat
  VPN_GATEWAY : Option Text
  VPN_API_PORT : Nat
  VPN_STATUS_FILE_WRITE_INTERVAL_SECONDS : Nat
  VPN_DOWNRATE : Option Text
  VPN_UPRATE : Option Text
  LEARN_ADDRESS_DEBUG : Bool

-- The largest subnet is a /16.
def VPN_INSTANCE_SUBNET_BITMASK (config : Config) : Nat :=
  max 16 (config.instanceSubnetBitmask.getD
    (config.VPN_BASE_MASK + Nat.clog 2 config.VPN_INSTANCE_COUNT))

end Config

section Args

structure Manager where
  instanceId : Nat
  vpnPort : Nat
  mgtPort : Nat
  subnet : Netmask
  gateway : Option Text

def number (value : Nat) : Text := Nat.toDigits 10 value

def pidFile (manager : Manager) : Text :=
  "/var/run/openvpn/server-".toList ++ number manager.instanceId ++ ".pid".toList

-- A setting that is not the empty text.
def isSet (setting : Option Text) : Bool := setting.isSome && setting != some []

-- The throttling plugin is there where both rates are.
def learnAddress (config : Config) (manager : Manager) : List Text :=
  if isSet config.VPN_DOWNRATE && isSet config.VPN_UPRATE then
    ["--plugin".toList, "/etc/openvpn/plugins/openvpn-plugin-learn-address-script.so".toList,
      "/etc/openvpn/scripts/learn-address.sh".toList, config.VPN_DOWNRATE.getD [],
      config.VPN_UPRATE.getD [], "tun".toList ++ number manager.instanceId] ++
      (if config.LEARN_ADDRESS_DEBUG then ["debug".toList] else [])
  else []

def args (config : Config) (manager : Manager) : List Text :=
  let gateway := manager.gateway.getD manager.subnet.first
  ["--status-version".toList, "2".toList, "--writepid".toList, pidFile manager,
    "--status".toList, "/run/openvpn/server-".toList ++ number manager.instanceId ++
      ".status".toList, number config.VPN_STATUS_FILE_WRITE_INTERVAL_SECONDS,
    "--cd".toList, "/etc/openvpn".toList, "--config".toList, "/etc/openvpn/server.conf".toList,
    "--verb".toList, "3".toList, "--dev".toList, "tun".toList ++ number manager.instanceId,
    "--txqueuelen".toList, "1000".toList, "--port".toList, number manager.vpnPort,
    "--management".toList, "127.0.0.1".toList, number manager.mgtPort,
    "--management-hold".toList] ++
  ["--ifconfig".toList, gateway, manager.subnet.second] ++
  ["--ifconfig-pool".toList, manager.subnet.third, manager.subnet.last] ++
  ["--route".toList, manager.subnet.base, manager.subnet.mask,
    "--push".toList, "route ".toList ++ gateway,
    "--plugin".toList, "/etc/openvpn/plugins/openvpn-plugin-connect-disconnect-script.so".toList,
    "/etc/openvpn/scripts/client-connect-disconnect.sh".toList, number manager.instanceId,
    number config.VPN_API_PORT] ++
  learnAddress config manager ++
  ["--plugin".toList, "/etc/openvpn/plugins/openvpn-plugin-auth-script.so".toList,
    "/etc/openvpn/scripts/auth".toList, number config.VPN_API_PORT]

end Args

section Instances

variable (package : Package) (config : Config)

-- The subnet at the index of the worker, if there is one.
def getInstanceSubnet (fuel instanceId : Nat) : Option (Except Text (Option Netmask)) :=
  match Netmask.new package config.VPN_BASE_IP config.VPN_BASE_MASK with
  | .error error => some (.error error)
  | .ok network =>
      (Netmask.split package fuel network (VPN_INSTANCE_SUBNET_BITMASK config)).map fun subnets =>
        subnets.map fun subnets => match instanceId with
          | 0 => none
          | index + 1 => subnets[index]?

def instanceManager (instanceId : Nat) (subnet : Netmask) : Manager where
  instanceId
  vpnPort := config.VPN_BASE_PORT + instanceId
  mgtPort := config.VPN_BASE_MANAGEMENT_PORT + instanceId
  subnet
  gateway := config.VPN_GATEWAY

end Instances

section Theorems

variable {package : Package} {config : Config}

-- What openvpn is given for a subnet: the pair of the server and the pool of the clients
-- are apart, and between the network and the broadcast address.
structure Served (package : Package) (subnet : Netmask) (args : List Text)
    (gateway second third last : Text) : Prop where
  ifconfig : ["--ifconfig".toList, gateway, second] <:+: args
  pool : ["--ifconfig-pool".toList, third, last] <:+: args
  aboveNetwork : subnet.netLong < package.ip2long gateway
  pair : package.ip2long gateway < package.ip2long second
  apart : package.ip2long second < package.ip2long third
  nonempty : package.ip2long third ≤ package.ip2long last
  belowBroadcast : package.ip2long last < subnet.netLong + subnet.size - 1
  bounded : package.ip2long last - package.ip2long third + 1 ≤ 65536

-- There are subnets for all of the workers.
theorem count_le_subnets (hmask : config.instanceSubnetBitmask = none) :
    config.VPN_INSTANCE_COUNT ≤
      2 ^ (VPN_INSTANCE_SUBNET_BITMASK config - config.VPN_BASE_MASK) := by
  have hclog := Nat.le_pow_clog (Nat.lt_succ_self 1) config.VPN_INSTANCE_COUNT
  have hdiff : Nat.clog 2 config.VPN_INSTANCE_COUNT ≤
      VPN_INSTANCE_SUBNET_BITMASK config - config.VPN_BASE_MASK := by
    rw [VPN_INSTANCE_SUBNET_BITMASK, hmask, Option.getD_none]
    omega
  exact hclog.trans (Nat.pow_le_pow_right (by omega) hdiff)

-- The offsets of the addresses that a manager passes on.
theorem construct_offsets (h : package.Lawful) (net : Text) {mask : Nat} (hmask : mask ≤ 29) :
    package.ip2long (Netmask.construct package net mask).first =
        (package.block net mask).netLong + 1 ∧
      package.ip2long (Netmask.construct package net mask).second =
        (package.block net mask).netLong + 2 ∧
      package.ip2long (Netmask.construct package net mask).third =
        (package.block net mask).netLong + 3 ∧
      package.ip2long (Netmask.construct package net mask).last =
        (package.block net mask).netLong + 2 ^ (32 - mask) - 2 := by
  have hend := block_end_le h net mask (by omega)
  have hsize : 2 ^ 3 ≤ 2 ^ (32 - mask) := Nat.pow_le_pow_right (by omega) (by omega)
  have hblock := construct_eq h net mask (by omega)
  have hfirst : package.ip2long (package.block net mask).first =
      (package.block net mask).netLong + 1 := by
    rw [← Nat.mod_eq_of_lt (show (package.block net mask).netLong + 1 < 2 ^ 32 by omega)]
    exact h.ip2long_long2ip _
  have hoffset : ∀ offset < 2 ^ (32 - mask) - 1,
      package.ip2long (package.long2ip (package.ip2long (package.block net mask).first + offset)) =
        (package.block net mask).netLong + 1 + offset := by
    intro offset ho
    rw [h.ip2long_long2ip, hfirst, Nat.mod_eq_of_lt (by omega)]
  have hlast : package.ip2long (package.block net mask).last =
      (package.block net mask).netLong + 2 ^ (32 - mask) - 2 := by
    rw [← Nat.mod_eq_of_lt
      (show (package.block net mask).netLong + 2 ^ (32 - mask) - 2 < 2 ^ 32 by omega)]
    exact h.ip2long_long2ip _
  have hnetmask := h.netmask_eq net mask (by omega)
  refine ⟨by rw [hblock, hfirst], ?_, ?_, by rw [hblock, hlast]⟩
  · rw [Netmask.construct, hnetmask, hoffset 1 (by omega)]
  · rw [Netmask.construct, hnetmask, hoffset 2 (by omega)]

theorem infix_third {α : Type*} (a b c d e f : List α) : b <:+: a ++ b ++ c ++ d ++ e ++ f :=
  ⟨a, c ++ d ++ e ++ f, by simp⟩

theorem infix_fourth {α : Type*} (a b c d e f : List α) : c <:+: a ++ b ++ c ++ d ++ e ++ f :=
  ⟨a ++ b, d ++ e ++ f, by simp⟩

theorem served (h : package.Lawful) {net : Text} {mask : Nat} (hlow : 16 ≤ mask)
    (hmask : mask ≤ 29) {manager : Manager}
    (hsubnet : manager.subnet = Netmask.construct package net mask)
    (hgateway : manager.gateway = none) :
    Served package manager.subnet (args config manager) manager.subnet.first
      manager.subnet.second manager.subnet.third manager.subnet.last := by
  have hend := block_end_le h net mask (by omega)
  have hsize : 2 ^ 3 ≤ 2 ^ (32 - mask) := Nat.pow_le_pow_right (by omega) (by omega)
  have hlarge : 2 ^ (32 - mask) ≤ 2 ^ 16 := Nat.pow_le_pow_right (by omega) (by omega)
  have hblock := construct_eq h net mask (by omega)
  obtain ⟨hfirst, hsecond, hthird, hlast⟩ := construct_offsets h net hmask
  rw [hblock] at hfirst hlast
  have hargs : ["--ifconfig".toList, manager.gateway.getD manager.subnet.first,
      manager.subnet.second] <:+: args config manager := infix_third _ _ _ _ _ _
  rw [hgateway, Option.getD_none] at hargs
  refine ⟨hargs, infix_fourth _ _ _ _ _ _, ?_, ?_, ?_, ?_, ?_, ?_⟩
  all_goals rw [hsubnet]
  all_goals simp only [hfirst, hsecond, hthird, hlast, hblock, block_size]
  all_goals omega

theorem getInstanceSubnet_eq (h : package.Lawful) (hlow : 1 ≤ config.VPN_BASE_MASK)
    (hdefault : config.instanceSubnetBitmask = none)
    (hbits : VPN_INSTANCE_SUBNET_BITMASK config ≤ 29) {index : Nat}
    (hindex : index < config.VPN_INSTANCE_COUNT) (fuel : Nat) :
    getInstanceSubnet package config
        (2 ^ (VPN_INSTANCE_SUBNET_BITMASK config - config.VPN_BASE_MASK) + 1 + fuel) (index + 1) =
      some (.ok (some (Netmask.subnetAt package config.VPN_BASE_IP config.VPN_BASE_MASK
        (VPN_INSTANCE_SUBNET_BITMASK config) index))) := by
  have hcount := count_le_subnets hdefault
  have hle : config.VPN_BASE_MASK ≤ VPN_INSTANCE_SUBNET_BITMASK config := by
    rw [VPN_INSTANCE_SUBNET_BITMASK, hdefault, Option.getD_none]
    omega
  have hsplit : Netmask.split package _ (Netmask.construct package config.VPN_BASE_IP _) _ = _ :=
    Netmask.split_construct h hlow hle hbits fuel
  rw [getInstanceSubnet, Netmask.new, if_neg (by omega)]
  simp only [hsplit, Option.map_some, Except.map, Netmask.subnets]
  rw [List.getElem?_map, List.getElem?_range (by omega), Option.map_some]

theorem instance_networks (package : Package) (config : Config) (h : package.Lawful)
    (hlow : 1 ≤ config.VPN_BASE_MASK) (hdefault : config.instanceSubnetBitmask = none)
    (hbits : VPN_INSTANCE_SUBNET_BITMASK config ≤ 29) (hgateway : config.VPN_GATEWAY = none) :
    ∃ (enough : Nat) (subnet : Nat → Netmask),
      (∀ id, 1 ≤ id → id ≤ config.VPN_INSTANCE_COUNT → ∀ fuel,
        getInstanceSubnet package config (enough + fuel) id = some (.ok (some (subnet id)))) ∧
      (∀ id other, 1 ≤ id → id ≤ config.VPN_INSTANCE_COUNT → 1 ≤ other →
        other ≤ config.VPN_INSTANCE_COUNT → id ≠ other →
        ∀ address ∈ (subnet id).addresses, address ∉ (subnet other).addresses) ∧
      ∀ id, 1 ≤ id → id ≤ config.VPN_INSTANCE_COUNT →
        (subnet id).addresses ⊆
            (package.block config.VPN_BASE_IP config.VPN_BASE_MASK).addresses ∧
          Served package (subnet id) (args config (instanceManager config id (subnet id)))
            (subnet id).first (subnet id).second (subnet id).third (subnet id).last := by
  have hcount := count_le_subnets hdefault
  have hle : config.VPN_BASE_MASK ≤ VPN_INSTANCE_SUBNET_BITMASK config := by
    rw [VPN_INSTANCE_SUBNET_BITMASK, hdefault, Option.getD_none]
    omega
  refine ⟨2 ^ (VPN_INSTANCE_SUBNET_BITMASK config - config.VPN_BASE_MASK) + 1,
    fun id => Netmask.subnetAt package config.VPN_BASE_IP config.VPN_BASE_MASK
      (VPN_INSTANCE_SUBNET_BITMASK config) (id - 1), ?_, ?_, ?_⟩
  · intro id hid hle fuel
    obtain ⟨index, rfl⟩ := Nat.exists_eq_add_of_le' hid
    exact getInstanceSubnet_eq h hlow hdefault hbits (by omega) fuel
  · intro id other hid hidle hother hotherle hne
    exact Netmask.subnet_disjoint h hle hbits (by omega) (by omega) (by omega)
  · intro id hid hidle
    refine ⟨Netmask.subnet_subset h hle hbits (by omega), ?_⟩
    exact served h (Nat.le_max_left 16 _) hbits
      (show (instanceManager config id _).subnet = _ from rfl) hgateway

-- Three workers on 10.0.0.0/8.
def threeWorkers : Config where
  VPN_BASE_IP := "10.0.0.0".toList
  VPN_BASE_MASK := 8
  VPN_INSTANCE_COUNT := 3
  instanceSubnetBitmask := none
  VPN_BASE_PORT := 10000
  VPN_BASE_MANAGEMENT_PORT := 20000
  VPN_GATEWAY := none
  VPN_API_PORT := 80
  VPN_STATUS_FILE_WRITE_INTERVAL_SECONDS := 10
  VPN_DOWNRATE := none
  VPN_UPRATE := none
  LEARN_ADDRESS_DEBUG := false

theorem instance_networks_threeWorkers :
    ∃ fuel subnet, getInstanceSubnet dottedPackage threeWorkers fuel 3 =
        some (.ok (some subnet)) ∧
      Served dottedPackage subnet (args threeWorkers (instanceManager threeWorkers 3 subnet))
        subnet.first subnet.second subnet.third subnet.last := by
  obtain ⟨enough, subnet, hdefined, _, hserved⟩ := instance_networks dottedPackage threeWorkers
    dottedPackage_lawful (by decide) rfl (by decide) rfl
  exact ⟨enough + 0, subnet 3, hdefined 3 (by decide) (by decide) 0,
    (hserved 3 (by decide) (by decide)).2⟩

end Theorems

end OpenBalenaVpn.VpnManager
