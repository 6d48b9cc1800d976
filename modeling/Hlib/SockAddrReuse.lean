import Hlib.SockAddrText

namespace Hlib

open Delimiter

namespace SockAddr

section Forms

/-- How `parse` reads a text, whatever the object holds. -/
inductive Form
  | inet6 (addr : Addr 16) (port : Nat)
  | inet (addr : Addr 4) (port : Nat)
  | unix
  /-- A path, after an address was read from its front and stored. -/
  | unixAfterInet6 (addr : Addr 16)
  | unixAfterInet (addr : Addr 4)

def form (inet : Inet) (string : List Byte) : Form :=
  if count string (ascii ':') ≥ 2 then
    let start := if startsWith string (ascii '[') then 1 else 0
    let end_ := (rfind [ascii ']', ascii ':'] string).getD npos
    if start > end_ ∨ 1 = start ∧ npos = end_ ∨ 0 = start ∧ npos ≠ end_ then .unix
    else
      match inet.pton6 (cString (substr string start (end_ - 1))) with
      | none => .unix
      | some addr =>
        if npos ≠ end_ then
          match stoui16 (string.drop (end_ + 2)) 10 with
          | none => .unixAfterInet6 addr
          | some port => .inet6 addr port
        else .inet6 addr 0
  else if 3 = count string (ascii '.') then
    let pos := (rfind [ascii ':'] string).getD npos
    match inet.pton4 (cString (substr string 0 pos)) with
    | none => .unix
    | some addr =>
      if npos ≠ pos then
        match stoui16 (string.drop (pos + 1)) 10 with
        | none => .unixAfterInet addr
        | some port => .inet addr port
      else .inet addr 0
  else .unix

def storePath (sa : SockAddr) (string : List Byte) : SockAddr :=
  ((sa.setFamily AF_UNIX).store 2 string).store (2 + string.length) [0]

def Form.written (string : List Byte) (sa : SockAddr) : Form → SockAddr
  | .inet6 addr port => (sa.storeIn6 addr).storePort port
  | .inet addr port => (sa.storeIn addr).storePort port
  | .unix => sa.storePath string
  | .unixAfterInet6 addr => (sa.storeIn6 addr).storePath string
  | .unixAfterInet addr => (sa.storeIn addr).storePath string

/-- The bytes of the address, as long as `length` says it is, that are not stored to. -/
def Form.Leaves (string : List Byte) : Form → Nat → Prop
  | .inet6 _ _, i => 4 ≤ i ∧ i < 8 ∨ 24 ≤ i ∧ i < 28
  | .inet _ _, i => 8 ≤ i ∧ i < 16
  | .unix, i => string.length + 3 ≤ i ∧ i < 110
  | .unixAfterInet6 _, i => string.length + 3 ≤ i ∧ i < 110 ∧ (4 ≤ i ∧ i < 8 ∨ 24 ≤ i)
  | .unixAfterInet _, i => string.length + 3 ≤ i ∧ i < 110 ∧ 8 ≤ i

def Form.isUnix : Form → Bool
  | .inet6 _ _ => false
  | .inet _ _ => false
  | _ => true

/-- Whether the mask allows what the text looks like. -/
def allowed (string : List Byte) (mask : Mask) : Prop :=
  if count string (ascii ':') ≥ 2 then IPv6 &&& mask ≠ 0
  else if 3 = count string (ascii '.') then IPv4 &&& mask ≠ 0
  else True

def UnixAllowed (string : List Byte) (mask : Mask) (form : Form) : Prop :=
  form.isUnix = true → Unix &&& mask ≠ 0 ∧ string.length ≤ 107

/-- How a call that reads `string` in the given form goes. -/
def Goes (string : List Byte) (mask : Mask) (form : Form) (sa : SockAddr) (call : Bool × SockAddr) : Prop :=
  UnixAllowed string mask form ∧ call = (true, form.written string sa) ∨
    ¬UnixAllowed string mask form ∧ call.1 = false

theorem toUnix_goes {form : Form} (h : form.isUnix = true) {string : List Byte} {sa sa' : SockAddr}
    (written : form.written string sa = sa'.storePath string) (mask : Mask) :
    Goes string mask form sa (sa'.toUnix string mask) := by
  unfold Goes toUnix
  by_cases unix : 0 = Unix &&& mask
  · rw [if_pos unix]
    exact Or.inr ⟨fun allowed => (allowed h).1 unix.symm, rfl⟩
  · rw [if_neg unix]
    by_cases long : string.length + 1 > sizeofSunPath
    · rw [if_pos long]
      refine Or.inr ⟨fun allowed => ?_, rfl⟩
      have fits := (allowed h).2
      unfold sizeofSunPath at long
      omega
    · rw [if_neg long, written]
      refine Or.inl ⟨fun _ => ⟨Ne.symm unix, ?_⟩, rfl⟩
      unfold sizeofSunPath at long
      omega

theorem network_goes {form : Form} (h : form.isUnix = false) {string : List Byte} {sa sa' : SockAddr}
    (written : form.written string sa = sa') (mask : Mask) : Goes string mask form sa (true, sa') := by
  left
  rw [written]
  refine ⟨fun unix => ?_, rfl⟩
  rw [h] at unix
  cases unix

/-- What is left to do once the form is known, from what has been stored for it. -/
def Form.finish (sa : SockAddr) (string : List Byte) (mask : Mask) : Form → Bool × SockAddr
  | .inet6 addr port => (true, (sa.storeIn6 addr).storePort port)
  | .inet addr port => (true, (sa.storeIn addr).storePort port)
  | .unix => sa.toUnix string mask
  | .unixAfterInet6 addr => (sa.storeIn6 addr).toUnix string mask
  | .unixAfterInet addr => (sa.storeIn addr).toUnix string mask

/-- `parse` consults the mask once for what the text looks like, and then reads it as its form. -/
theorem parse_form (inet : Inet) (sa : SockAddr) (string : List Byte) (mask : Mask) :
    allowed string mask ∧
        sa.parse inet string mask = (form inet string).finish (sa.setFamily AF_UNSPEC) string mask ∨
      ¬allowed string mask ∧ sa.parse inet string mask = (false, sa.clear) := by
  unfold allowed parse form
  by_cases colons : count string (ascii ':') ≥ 2
  · simp only [if_pos colons]
    by_cases refused : 0 = IPv6 &&& mask
    · rw [if_pos refused]
      exact Or.inr ⟨not_not.mpr refused.symm, rfl⟩
    · rw [if_neg refused]
      refine Or.inl ⟨Ne.symm refused, ?_⟩
      generalize (if startsWith string (ascii '[') then 1 else 0) = start
      generalize (rfind [ascii ']', ascii ':'] string).getD npos = end_
      split
      next => rfl
      next =>
        cases inet.pton6 (cString (substr string start (end_ - 1))) with
        | none => rfl
        | some addr =>
          dsimp only
          split
          next =>
            cases stoui16 (string.drop (end_ + 2)) 10 with
            | none => rfl
            | some port => rfl
          next => exact congrArg (Prod.mk true) (storePort_storePort _ 0 0).symm
  · simp only [if_neg colons]
    by_cases dots : 3 = count string (ascii '.')
    · simp only [if_pos dots]
      by_cases refused : 0 = IPv4 &&& mask
      · rw [if_pos refused]
        exact Or.inr ⟨not_not.mpr refused.symm, rfl⟩
      · rw [if_neg refused]
        refine Or.inl ⟨Ne.symm refused, ?_⟩
        generalize (rfind [ascii ':'] string).getD npos = pos
        cases inet.pton4 (cString (substr string 0 pos)) with
        | none => rfl
        | some addr =>
          dsimp only
          split
          next =>
            cases stoui16 (string.drop (pos + 1)) 10 with
            | none => rfl
            | some port => rfl
          next => exact congrArg (Prod.mk true) (storePort_storePort _ 0 0).symm
    · simp only [if_neg dots]
      exact Or.inl ⟨trivial, rfl⟩

/-- What `parse` does is determined by the text and the mask, up to the bytes it does not store to. -/
theorem parse_goes (inet : Inet) (sa : SockAddr) (string : List Byte) (mask : Mask) :
    allowed string mask ∧
        Goes string mask (form inet string) (sa.setFamily AF_UNSPEC) (sa.parse inet string mask) ∨
      ¬allowed string mask ∧ (sa.parse inet string mask).1 = false := by
  rcases parse_form inet sa string mask with ⟨looks, parsed⟩ | ⟨refused, parsed⟩
  · left
    rw [parsed]
    refine ⟨looks, ?_⟩
    cases form inet string with
    | inet6 addr port => exact network_goes rfl rfl mask
    | inet addr port => exact network_goes rfl rfl mask
    | unix => exact toUnix_goes rfl rfl mask
    | unixAfterInet6 addr => exact toUnix_goes rfl rfl mask
    | unixAfterInet addr => exact toUnix_goes rfl rfl mask
  · right
    rw [parsed]
    exact ⟨refused, rfl⟩

end Forms

section Agreement

/-- Two objects agree in a byte after the same store if it is stored to, or they agreed before. -/
theorem store_agree_iff (sa sa' : SockAddr) (offset : Nat) (bytes : List Byte) (i : Nat) :
    sa.store offset bytes i = sa'.store offset bytes i ↔
      offset ≤ i ∧ i < offset + bytes.length ∨ sa i = sa' i := by
  by_cases inside : offset ≤ i ∧ i < offset + bytes.length
  · have one := store_inside sa inside.1 inside.2
    have other := store_inside sa' inside.1 inside.2
    exact iff_of_true (Option.some.inj (one.symm.trans other)) (Or.inl inside)
  · rw [store_outside sa (by omega), store_outside sa' (by omega)]
    exact (or_iff_right inside).symm

theorem storePort_agree_iff (sa sa' : SockAddr) (port i : Nat) :
    sa.storePort port i = sa'.storePort port i ↔ 2 ≤ i ∧ i < 4 ∨ sa i = sa' i :=
  store_agree_iff sa sa' 2 (portBytes port) i

theorem setFamily_agree_iff (sa sa' : SockAddr) (family i : Nat) :
    sa.setFamily family i = sa'.setFamily family i ↔ i < 2 ∨ sa i = sa' i := by
  have stored := store_agree_iff sa sa' 0 (familyBytes family) i
  have length : 0 + (familyBytes family).length = 2 := rfl
  rw [length] at stored
  rw [setFamily, setFamily, stored]
  simp

theorem storeIn6_agree_iff (sa sa' : SockAddr) (addr : Addr 16) (i : Nat) :
    sa.storeIn6 addr i = sa'.storeIn6 addr i ↔ i < 4 ∨ 8 ≤ i ∧ i < 24 ∨ sa i = sa' i := by
  unfold storeIn6
  rw [storePort_agree_iff, store_agree_iff, setFamily_agree_iff, addr.property]
  by_cases same : sa i = sa' i
  · simp only [same, or_true]
  · simp only [same, or_false]
    omega

theorem storeIn_agree_iff (sa sa' : SockAddr) (addr : Addr 4) (i : Nat) :
    sa.storeIn addr i = sa'.storeIn addr i ↔ i < 8 ∨ sa i = sa' i := by
  unfold storeIn
  rw [storePort_agree_iff, store_agree_iff, setFamily_agree_iff, addr.property]
  by_cases same : sa i = sa' i
  · simp only [same, or_true]
  · simp only [same, or_false]
    omega

theorem storePath_agree_iff (sa sa' : SockAddr) (string : List Byte) (i : Nat) :
    sa.storePath string i = sa'.storePath string i ↔ i < string.length + 3 ∨ sa i = sa' i := by
  unfold storePath
  rw [store_agree_iff, store_agree_iff, setFamily_agree_iff, List.length_singleton]
  by_cases same : sa i = sa' i
  · simp only [same, or_true]
  · simp only [same, or_false]
    omega

theorem form_fits {string : List Byte} {mask : Mask} {form : Form} (h : UnixAllowed string mask form)
    (unix : form.isUnix = true) : string.length ≤ 107 := (h unix).2

theorem storePath_family {string : List Byte} (h : string.length ≤ 107) (sa : SockAddr) :
    (sa.storePath string).family = AF_UNIX := by
  unfold storePath
  rw [store_family _ _ (by omega), store_family _ _ (by omega), setFamily_family _ (by decide)]

def Form.length : Form → Nat
  | .inet6 _ _ => 28
  | .inet _ _ => 16
  | _ => 110

theorem written_length {string : List Byte} {mask : Mask} {form : Form} (h : UnixAllowed string mask form)
    (sa : SockAddr) : (form.written string sa).length = form.length := by
  have unix : form.isUnix = true → ∀ sa : SockAddr, (sa.storePath string).length = 110 := by
    intro hu sa
    unfold SockAddr.length
    rw [storePath_family (form_fits h hu)]
    rfl
  cases form with
  | inet6 addr port =>
    unfold SockAddr.length Form.written
    rw [storePort_family, storeIn6_family]
    rfl
  | inet addr port =>
    unfold SockAddr.length Form.written
    rw [storePort_family, storeIn_family]
    rfl
  | unix => exact unix rfl sa
  | unixAfterInet6 addr => exact unix rfl (sa.storeIn6 addr)
  | unixAfterInet addr => exact unix rfl (sa.storeIn addr)

theorem written_agree_at (form : Form) (string : List Byte) (sa sa' : SockAddr) {i : Nat}
    (below : i < form.length) :
    form.written string sa i = form.written string sa' i ↔ ¬form.Leaves string i ∨ sa i = sa' i := by
  by_cases same : sa i = sa' i
  · refine iff_of_true ?_ (Or.inr same)
    cases form with
    | inet6 addr port => simp only [Form.written, storePort_agree_iff, storeIn6_agree_iff, same, or_true]
    | inet addr port => simp only [Form.written, storePort_agree_iff, storeIn_agree_iff, same, or_true]
    | unix => simp only [Form.written, storePath_agree_iff, same, or_true]
    | unixAfterInet6 addr => simp only [Form.written, storePath_agree_iff, storeIn6_agree_iff, same, or_true]
    | unixAfterInet addr => simp only [Form.written, storePath_agree_iff, storeIn_agree_iff, same, or_true]
  · rw [or_iff_left same]
    cases form with
    | inet6 addr port =>
      change i < 28 at below
      simp only [Form.written, Form.Leaves, storePort_agree_iff, storeIn6_agree_iff, same, or_false]
      omega
    | inet addr port =>
      change i < 16 at below
      simp only [Form.written, Form.Leaves, storePort_agree_iff, storeIn_agree_iff, same, or_false]
      omega
    | unix =>
      change i < 110 at below
      simp only [Form.written, Form.Leaves, storePath_agree_iff, same, or_false]
      omega
    | unixAfterInet6 addr =>
      change i < 110 at below
      simp only [Form.written, Form.Leaves, storePath_agree_iff, storeIn6_agree_iff, same, or_false]
      omega
    | unixAfterInet addr =>
      change i < 110 at below
      simp only [Form.written, Form.Leaves, storePath_agree_iff, storeIn_agree_iff, same, or_false]
      omega

/-- The two objects hand the same address to the kernel. -/
def Agree (sa sa' : SockAddr) : Prop :=
  sa.length = sa'.length ∧ ∀ i < sa.length, sa i = sa' i

theorem leaves_below {form : Form} {string : List Byte} {i : Nat} (h : form.Leaves string i) :
    2 ≤ i ∧ i < form.length := by
  cases form with
  | inet6 addr port =>
    change 4 ≤ i ∧ i < 8 ∨ 24 ≤ i ∧ i < 28 at h
    change 2 ≤ i ∧ i < 28
    omega
  | inet addr port =>
    change 8 ≤ i ∧ i < 16 at h
    change 2 ≤ i ∧ i < 16
    omega
  | unix =>
    change string.length + 3 ≤ i ∧ i < 110 at h
    change 2 ≤ i ∧ i < 110
    omega
  | unixAfterInet6 addr =>
    change string.length + 3 ≤ i ∧ i < 110 ∧ (4 ≤ i ∧ i < 8 ∨ 24 ≤ i) at h
    change 2 ≤ i ∧ i < 110
    omega
  | unixAfterInet addr =>
    change string.length + 3 ≤ i ∧ i < 110 ∧ 8 ≤ i at h
    change 2 ≤ i ∧ i < 110
    omega

theorem written_agree_iff {string : List Byte} {mask : Mask} {form : Form}
    (h : UnixAllowed string mask form) (sa sa' : SockAddr) :
    Agree (form.written string sa) (form.written string sa') ↔
      ∀ i, form.Leaves string i → sa i = sa' i := by
  unfold Agree
  rw [written_length h sa, written_length h sa']
  constructor
  · rintro ⟨_, agree⟩ i leaves
    have below := (leaves_below leaves).2
    rcases (written_agree_at form string sa sa' below).mp (agree i below) with stored | same
    · exact absurd leaves stored
    · exact same
  · intro prior
    refine ⟨rfl, fun i below => (written_agree_at form string sa sa' below).mpr ?_⟩
    by_cases leaves : form.Leaves string i
    · exact Or.inr (prior i leaves)
    · exact Or.inl leaves

/-- If `parse` succeeds on one object it does so on every other one, and the addresses are the same
if and only if the objects agreed in the bytes that are not stored to. -/
theorem parse_agree_iff (inet : Inet) {string : List Byte} {mask : Mask} {sa : SockAddr}
    (h : (sa.parse inet string mask).1 = true) (sa' : SockAddr) :
    (sa'.parse inet string mask).1 = true ∧
      (Agree (sa.parse inet string mask).2 (sa'.parse inet string mask).2 ↔
        ∀ i, (form inet string).Leaves string i → sa i = sa' i) := by
  have one := parse_goes inet sa string mask
  have other := parse_goes inet sa' string mask
  have untouched : ∀ i, (form inet string).Leaves string i → ∀ sa : SockAddr, sa.setFamily AF_UNSPEC i = sa i := by
    intro i leaves sa
    exact store_outside sa (Or.inr (leaves_below leaves).1)
  rcases one with ⟨allowed, ⟨unix, stored⟩ | ⟨_, failed⟩⟩ | ⟨_, failed⟩
  · rcases other with ⟨_, ⟨_, stored'⟩ | ⟨refused, _⟩⟩ | ⟨refused, _⟩
    · rw [stored, stored']
      refine ⟨rfl, (written_agree_iff unix _ _).trans (forall₂_congr fun i leaves => ?_)⟩
      rw [untouched i leaves sa, untouched i leaves sa']
    · exact absurd unix refused
    · exact absurd allowed refused
  · rw [failed] at h
    cases h
  · rw [failed] at h
    cases h

/-- An abstract name, read into a cleared object and into one that was used before. -/
theorem name_leaks :
    ¬∀ (inet : Inet) (string : List Byte) (mask : Mask) (sa sa' : SockAddr),
      (sa.parse inet string mask).1 = true →
        (sa'.parse inet string mask).1 = true ∧
          Agree (sa.parse inet string mask).2 (sa'.parse inet string mask).2 := by
  intro h
  have agree := (h sampleInet [0, 104] All (fun _ => 0) (fun _ => 255) (by decide)).2
  have leaked := agree.2 5 (by decide)
  exact absurd leaked (by decide)

theorem parse_agree_iff_sample :
    (parse sampleInet (fun _ => 255) [0, 104] All).1 = true ∧
      (Agree (parse sampleInet (fun _ => 0) [0, 104] All).2 (parse sampleInet (fun _ => 255) [0, 104] All).2 ↔
        ∀ i, (form sampleInet [0, 104]).Leaves [0, 104] i → (0 : Byte) = 255) :=
  parse_agree_iff sampleInet (by decide) fun _ => 255

end Agreement

end SockAddr

end Hlib
