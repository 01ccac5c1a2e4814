import Vertix.RwaTypes
import Mathlib.Tactic

/-!
# Store keys of the rwa module

Membership keys carry the length of the asset id in one byte, which makes
them readable for ids of at most 255 bytes.  Every registered id is a slug and
satisfies this; `KeyId` records it, and with it the encoding of all key
families is injective even though ids share prefixes.
-/

namespace Vertix
namespace Rwa

def keyPrefixAsset : Bytes := [0x01]
def keyPrefixIssuerIndex : Bytes := [0x02]
def keyPrefixAllowlist : Bytes := [0x03]
def keyPrefixDenylist : Bytes := [0x04]
def keyParams : Bytes := [0x05]

def assetKey (assetID : String) : Bytes := keyPrefixAsset ++ strBytes assetID

def issuerIndexKey (issuer : Address) (assetID : String) : Bytes :=
  keyPrefixIssuerIndex ++ lengthPrefix issuer ++ slash :: strBytes assetID

def issuerIndexPrefix (issuer : Address) : Bytes :=
  keyPrefixIssuerIndex ++ lengthPrefix issuer

/-- The length byte wraps on ids of more than 255 bytes. -/
def membershipPrefix (pre : Bytes) (assetID : String) : Bytes :=
  pre ++ UInt8.ofNat (strBytes assetID).length :: strBytes assetID

def membershipKey (pre : Bytes) (assetID : String) (addr : Address) : Bytes :=
  membershipPrefix pre assetID ++ addr.bytes

def allowlistKey (assetID : String) (addr : Address) : Bytes :=
  membershipKey keyPrefixAllowlist assetID addr

def denylistKey (assetID : String) (addr : Address) : Bytes :=
  membershipKey keyPrefixDenylist assetID addr

def allowlistPrefix (assetID : String) : Bytes :=
  membershipPrefix keyPrefixAllowlist assetID

def denylistPrefix (assetID : String) : Bytes :=
  membershipPrefix keyPrefixDenylist assetID

/-! ## Key families -/

/-- An asset id whose length fits into the length byte. -/
structure KeyId where
  text : String
  fits : (strBytes text).length ≤ 255
  deriving DecidableEq

def keyId? (assetID : String) : Option KeyId :=
  if hfits : (strBytes assetID).length ≤ 255 then some ⟨assetID, hfits⟩
  else none

theorem keyId?_eq_some_iff {assetID : String} {id : KeyId} :
    keyId? assetID = some id ↔ id.text = assetID := by
  unfold keyId?
  split_ifs with hfits
  · rw [Option.some.injEq]
    constructor
    · rintro rfl
      rfl
    · rintro rfl
      rfl
  · simp only [false_iff]
    rintro rfl
    exact hfits id.fits

theorem keyId?_of_slug {assetID : String}
    (hslug : slugRegexMatch assetID = true) :
    keyId? assetID = some ⟨assetID, slug_length_le hslug⟩ :=
  keyId?_eq_some_iff.mpr rfl

/-- The two membership lists of an asset. -/
inductive MemberList where
  | allow
  | deny
  deriving DecidableEq

def MemberList.keyPrefix : MemberList → Bytes
  | .allow => keyPrefixAllowlist
  | .deny => keyPrefixDenylist

inductive RwaKey where
  | asset (id : String)
  | issuerIndex (issuer : Address) (id : String)
  | member (list : MemberList) (id : KeyId) (addr : Address)
  | params
  deriving DecidableEq

def RwaKey.encode : RwaKey → Bytes
  | .asset id => assetKey id
  | .issuerIndex issuer id => issuerIndexKey issuer id
  | .member list id addr => membershipKey list.keyPrefix id.text addr
  | .params => keyParams

theorem RwaKey.encode_allow (id : KeyId) (addr : Address) :
    (RwaKey.member .allow id addr).encode = allowlistKey id.text addr :=
  rfl

theorem RwaKey.encode_deny (id : KeyId) (addr : Address) :
    (RwaKey.member .deny id addr).encode = denylistKey id.text addr :=
  rfl

/-- The first byte of a key, which names its family. -/
def RwaKey.family : RwaKey → UInt8
  | .asset _ => 0x01
  | .issuerIndex _ _ => 0x02
  | .member .allow _ _ => 0x03
  | .member .deny _ _ => 0x04
  | .params => 0x05

theorem RwaKey.encode_head? (key : RwaKey) :
    key.encode.head? = some key.family := by
  rcases key with id | ⟨issuer, id⟩ | ⟨_ | _, id, addr⟩ | _ <;> rfl

theorem RwaKey.family_eq_of_encode_eq {left right : RwaKey}
    (hkey : left.encode = right.encode) : left.family = right.family := by
  have hhead := congrArg List.head? hkey
  rw [encode_head?, encode_head?] at hhead
  exact Option.some.inj hhead

/-- The length byte separates the id from whatever follows it. -/
theorem membershipPrefix_append_inj
    {list list' : MemberList} {id id' : KeyId} {left right : Bytes}
    (heq : membershipPrefix list.keyPrefix id.text ++ left =
      membershipPrefix list'.keyPrefix id'.text ++ right) :
    list = list' ∧ id = id' ∧ left = right := by
  have hlist : list = list' := by
    cases list <;> cases list' <;>
      simp [membershipPrefix, MemberList.keyPrefix, keyPrefixAllowlist,
        keyPrefixDenylist] at heq ⊢
  subst hlist
  simp only [membershipPrefix, List.append_assoc, List.cons_append,
    List.append_cancel_left_eq, List.cons.injEq] at heq
  have hlength : (strBytes id.text).length = (strBytes id'.text).length := by
    have hbyte := congrArg UInt8.toNat heq.1
    have hleft := id.fits
    have hright := id'.fits
    simp only [UInt8.toNat_ofNat'] at hbyte
    omega
  have hparts := List.append_inj heq.2 hlength
  have htext : id.text = id'.text := strBytes_injective hparts.1
  refine ⟨rfl, ?_, hparts.2⟩
  cases id
  cases id'
  simp_all

theorem issuerIndexKey_injective
    {issuer issuer' : Address} {id id' : String}
    (hkey : issuerIndexKey issuer id = issuerIndexKey issuer' id') :
    issuer = issuer' ∧ id = id' := by
  simp only [issuerIndexKey, keyPrefixIssuerIndex, List.cons_append,
    List.nil_append, List.cons.injEq, true_and] at hkey
  have hparts := lengthPrefix_append_inj hkey
  simp only [List.cons.injEq, true_and] at hparts
  exact ⟨hparts.1, strBytes_injective hparts.2⟩

theorem RwaKey.encode_injective : Function.Injective RwaKey.encode := by
  intro left right hkey
  have hfamily := RwaKey.family_eq_of_encode_eq hkey
  cases left <;> cases right
  case asset.asset id id' =>
    have hid : strBytes id = strBytes id' := List.append_cancel_left hkey
    rw [strBytes_injective hid]
  case issuerIndex.issuerIndex issuer id issuer' id' =>
    have hparts := issuerIndexKey_injective hkey
    rw [hparts.1, hparts.2]
  case member.member list id addr list' id' addr' =>
    rcases membershipPrefix_append_inj hkey with ⟨hlist, hid, haddr⟩
    rw [hlist, hid, Address.ext_bytes haddr]
  case params.params => rfl
  case member.asset list id addr id' =>
    cases list <;> simp [RwaKey.family] at hfamily
  case member.issuerIndex list id addr issuer' id' =>
    cases list <;> simp [RwaKey.family] at hfamily
  case member.params list id addr =>
    cases list <;> simp [RwaKey.family] at hfamily
  case asset.member id list' id' addr' =>
    cases list' <;> simp [RwaKey.family] at hfamily
  case issuerIndex.member issuer id list' id' addr' =>
    cases list' <;> simp [RwaKey.family] at hfamily
  case params.member list' id' addr' =>
    cases list' <;> simp [RwaKey.family] at hfamily
  all_goals simp [RwaKey.family] at hfamily

/-! ## Prefixes -/

theorem RwaKey.family_of_starts {key : RwaKey} {byte : UInt8} {rest : Bytes}
    (hstarts : byte :: rest <+: key.encode) : key.family = byte := by
  have hhead := key.encode_head?
  rcases hstarts with ⟨tail, htail⟩
  rw [← htail, List.cons_append, List.head?_cons, Option.some.injEq] at hhead
  exact hhead.symm

theorem assetPrefix_prefix_iff (key : RwaKey) :
    keyPrefixAsset <+: key.encode ↔ ∃ id, key = .asset id := by
  constructor
  · intro hstarts
    have hfamily := RwaKey.family_of_starts hstarts
    rcases key with id | ⟨issuer, id⟩ | ⟨_ | _, id, addr⟩ | _ <;>
      simp [RwaKey.family] at hfamily ⊢
  · rintro ⟨id, rfl⟩
    exact List.prefix_append _ _

/-- The index prefix of an issuer selects the index entries of this issuer. -/
theorem issuerIndexPrefix_prefix_iff (issuer : Address) (key : RwaKey) :
    issuerIndexPrefix issuer <+: key.encode ↔
      ∃ id, key = .issuerIndex issuer id := by
  constructor
  · intro hstarts
    have hfamily : key.family = 0x02 := RwaKey.family_of_starts hstarts
    rcases key with id | ⟨issuer', id⟩ | ⟨_ | _, id, addr⟩ | _ <;>
      simp [RwaKey.family] at hfamily ⊢
    rcases hstarts with ⟨tail, htail⟩
    simp only [issuerIndexPrefix, RwaKey.encode, issuerIndexKey,
      List.append_assoc, List.append_cancel_left_eq] at htail
    exact (lengthPrefix_append_inj htail).1.symm
  · rintro ⟨id, rfl⟩
    exact List.prefix_append _ _

theorem exists_member_of_starts {list : MemberList} {rest : Bytes}
    {key : RwaKey} (hstarts : list.keyPrefix ++ rest <+: key.encode) :
    ∃ id addr, key = .member list id addr := by
  have hfamily : list.keyPrefix = [key.family] := by
    cases list <;>
      exact congrArg (fun byte => [byte])
        (RwaKey.family_of_starts hstarts).symm
  rcases key with id | ⟨issuer, id⟩ | ⟨_ | _, id, addr⟩ | _ <;> cases list <;>
    simp [RwaKey.family, MemberList.keyPrefix, keyPrefixAllowlist,
      keyPrefixDenylist] at hfamily ⊢

/-- A membership prefix selects the members of one asset, also when its id is
a prefix of another id. -/
theorem membershipPrefix_prefix_iff
    (list : MemberList) (id : KeyId) (key : RwaKey) :
    membershipPrefix list.keyPrefix id.text <+: key.encode ↔
      ∃ addr, key = .member list id addr := by
  constructor
  · intro hstarts
    rcases exists_member_of_starts hstarts with ⟨id', addr, rfl⟩
    rcases hstarts with ⟨tail, htail⟩
    rcases membershipPrefix_append_inj htail with ⟨-, rfl, -⟩
    exact ⟨addr, rfl⟩
  · rintro ⟨addr, rfl⟩
    exact List.prefix_append _ _

/-- An id whose length does not fit into the length byte has no members: a
key below its prefix would need an address of more than 255 bytes. -/
theorem membershipPrefix_not_prefix_of_long (list : MemberList)
    {assetID : String} (hlong : 255 < (strBytes assetID).length)
    (key : RwaKey) :
    ¬ membershipPrefix list.keyPrefix assetID <+: key.encode := by
  intro hstarts
  rcases exists_member_of_starts hstarts with ⟨id, addr, rfl⟩
  have hrest : UInt8.ofNat (strBytes assetID).length :: strBytes assetID <+:
      UInt8.ofNat (strBytes id.text).length ::
        (strBytes id.text ++ addr.bytes) := by
    simpa [membershipPrefix, RwaKey.encode, membershipKey] using hstarts
  have hbyte := congrArg UInt8.toNat (List.cons_prefix_cons.mp hrest).1
  have hlength := (List.cons_prefix_cons.mp hrest).2.length_le
  have hfits := id.fits
  have hshort := addr.valid.2
  simp only [UInt8.toNat_ofNat', List.length_append] at hbyte hlength
  omega

end Rwa
end Vertix
