import Defrizer.ByteFields

/-!
# The grammar of Ethernet frames

What a frame is, stated on byte strings without cursors: an Ethernet header, a chain of
VLAN tags, a network header, a TCP header and whatever follows.
-/
namespace Defrizer.FrameGrammar
open ByteFields

def etherTypeIpv4 : ℕ := 0x0800
def etherTypeIpv6 : ℕ := 0x86DD
def protocolTcp : ℕ := 6

def AnnouncesTag (p : ℕ) : Prop := p = 0x8100 ∨ p = 0x88A8

instance (p : ℕ) : Decidable (AnnouncesTag p) := inferInstanceAs (Decidable (_ ∨ _))

def etherType (eth : List UInt8) : ℕ := wordAt eth 12

/-- At most `n` tags, the first announced by EtherType `p`, the last announcing `q`. -/
inductive TagChain : ℕ → ℕ → List UInt8 → ℕ → Prop
  | nil (n p : ℕ) : TagChain n p [] p
  | tag {n p q : ℕ} {tag tags : List UInt8} (announced : AnnouncesTag p)
      (size : tag.length = 4) (next : TagChain n (wordAt tag 2) tags q) :
      TagChain (n + 1) p (tag ++ tags) q

def ihl (ip : List UInt8) : ℕ := byteAt ip 0 % 16
def version (ip : List UInt8) : ℕ := byteAt ip 0 / 16
def totLen (ip : List UInt8) : ℕ := wordAt ip 2
def fragOffset (ip : List UInt8) : ℕ := wordAt ip 6 % 8192
def moreFragments (ip : List UInt8) : ℕ := wordAt ip 6 / 8192 % 2
def protocol (ip : List UInt8) : ℕ := byteAt ip 9
def nextHeader (ip : List UInt8) : ℕ := byteAt ip 6
def doff (tcp : List UInt8) : ℕ := byteAt tcp 12 / 16
def destPort (tcp : List UInt8) : ℕ := wordAt tcp 2

def Ipv4Header (ip : List UInt8) : Prop := 5 ≤ ihl ip ∧ ip.length = 4 * ihl ip

def Ipv6Header (ip : List UInt8) : Prop := ip.length = 40

def TcpHeader (tcp : List UInt8) : Prop := 5 ≤ doff tcp ∧ tcp.length = 4 * doff tcp

/-- The network header after EtherType `p` that announces upper-layer protocol `proto`. -/
def NetHeader (p : ℕ) (ip : List UInt8) (proto : ℕ) : Prop :=
  (p = etherTypeIpv4 ∧ Ipv4Header ip ∧ protocol ip = proto) ∨
    (p = etherTypeIpv6 ∧ Ipv6Header ip ∧ nextHeader ip = proto)

def StartsWithTcp (bytes : List UInt8) : Prop :=
  ∃ tcp rest, bytes = tcp ++ rest ∧ TcpHeader tcp

/-- An Ethernet header and up to two VLAN tags; the last EtherType is `p`. -/
structure LinkLayer (frame eth tags payload : List UInt8) (p : ℕ) : Prop where
  split : frame = eth ++ (tags ++ payload)
  ethSize : eth.length = 14
  chain : TagChain 2 (etherType eth) tags p

/-- A link layer whose payload is a network header announcing TCP, followed by `segment`. -/
structure CarriesTcp (frame eth tags ip segment : List UInt8) (p : ℕ) : Prop where
  link : LinkLayer frame eth tags (ip ++ segment) p
  net : NetHeader p ip protocolTcp

/-- A chain that ends on an EtherType announcing no tag cannot be cut differently. -/
theorem TagChain.unique {n p q q' : ℕ} {tags tags' rest rest' : List UInt8}
    (h : TagChain n p tags q) (h' : TagChain n p tags' q') (hq : ¬ AnnouncesTag q)
    (hq' : ¬ AnnouncesTag q') (he : tags ++ rest = tags' ++ rest') :
    tags = tags' ∧ rest = rest' ∧ q = q' := by
  induction h generalizing tags' q' with
  | nil n p =>
    cases h' with
    | nil => exact ⟨rfl, he, rfl⟩
    | tag announced => exact absurd announced hq
  | @tag n p q tag tags announced size next ih =>
    cases h' with
    | nil => exact absurd announced hq'
    | @tag _ _ _ tag' tags' _ size' next' =>
      rw [List.append_assoc, List.append_assoc] at he
      obtain ⟨rfl, hrest⟩ := List.append_inj he (size.trans size'.symm)
      obtain ⟨rfl, hr, hqq⟩ := ih next' hq hq' hrest
      exact ⟨rfl, hr, hqq⟩

/-- The header length is read from the header itself, so the cut after it is unique. -/
theorem Ipv4Header.unique {ip ip' rest rest' : List UInt8} (h : Ipv4Header ip)
    (h' : Ipv4Header ip') (he : ip ++ rest = ip' ++ rest') : ip = ip' ∧ rest = rest' := by
  have hl : 0 < ip.length := by have := h.1; have := h.2; omega
  have hl' : 0 < ip'.length := by have := h'.1; have := h'.2; omega
  have hb : byteAt ip 0 = byteAt ip' 0 := by
    rw [← byteAt_append_left rest hl, ← byteAt_append_left rest' hl', he]
  refine List.append_inj he ?_
  rw [h.2, h'.2, ihl, ihl, hb]

theorem TcpHeader.unique {tcp tcp' rest rest' : List UInt8} (h : TcpHeader tcp)
    (h' : TcpHeader tcp') (he : tcp ++ rest = tcp' ++ rest') : tcp = tcp' ∧ rest = rest' := by
  have hl : 12 < tcp.length := by have := h.1; have := h.2; omega
  have hl' : 12 < tcp'.length := by have := h'.1; have := h'.2; omega
  have hb : byteAt tcp 12 = byteAt tcp' 12 := by
    rw [← byteAt_append_left rest hl, ← byteAt_append_left rest' hl', he]
  refine List.append_inj he ?_
  rw [h.2, h'.2, doff, doff, hb]

theorem etherType_ip_not_tag {p : ℕ} (h : p = etherTypeIpv4 ∨ p = etherTypeIpv6) :
    ¬ AnnouncesTag p := by
  rcases h with rfl | rfl <;> decide

theorem NetHeader.etherType {p proto : ℕ} {ip : List UInt8} (h : NetHeader p ip proto) :
    p = etherTypeIpv4 ∨ p = etherTypeIpv6 := by
  rcases h with ⟨hp, _⟩ | ⟨hp, _⟩
  · exact Or.inl hp
  · exact Or.inr hp

theorem LinkLayer.unique {frame eth tags payload eth' tags' payload' : List UInt8} {p p' : ℕ}
    (h : LinkLayer frame eth tags payload p) (h' : LinkLayer frame eth' tags' payload' p')
    (hp : ¬ AnnouncesTag p) (hp' : ¬ AnnouncesTag p') :
    eth = eth' ∧ tags = tags' ∧ payload = payload' ∧ p = p' := by
  have he := h.split.symm.trans h'.split
  obtain ⟨rfl, hrest⟩ := List.append_inj he (h.ethSize.trans h'.ethSize.symm)
  obtain ⟨rfl, rfl, rfl⟩ := h.chain.unique h'.chain hp hp' hrest
  exact ⟨rfl, rfl, rfl, rfl⟩

theorem CarriesTcp.frame_eq {frame eth tags ip segment : List UInt8} {p : ℕ}
    (h : CarriesTcp frame eth tags ip segment p) : frame = (eth ++ tags ++ ip) ++ segment := by
  rw [h.link.split]
  simp only [List.append_assoc]

theorem CarriesTcp.length_le {frame eth tags ip segment : List UInt8} {p : ℕ}
    (h : CarriesTcp frame eth tags ip segment p) : 14 ≤ frame.length := by
  rw [h.link.split, List.length_append, h.link.ethSize]
  omega

/-- A frame carries TCP in at most one way. -/
theorem CarriesTcp.unique {frame eth tags ip segment eth' tags' ip' segment' : List UInt8}
    {p p' : ℕ} (h : CarriesTcp frame eth tags ip segment p)
    (h' : CarriesTcp frame eth' tags' ip' segment' p') :
    eth = eth' ∧ tags = tags' ∧ ip = ip' ∧ segment = segment' ∧ p = p' := by
  obtain ⟨rfl, rfl, he, rfl⟩ := h.link.unique h'.link
    (etherType_ip_not_tag h.net.etherType) (etherType_ip_not_tag h'.net.etherType)
  rcases h.net with ⟨hp, hip, _⟩ | ⟨hp, hip, _⟩ <;> rcases h'.net with ⟨hq, hip', _⟩ | ⟨hq, hip', _⟩
  · obtain ⟨rfl, rfl⟩ := hip.unique hip' he
    exact ⟨rfl, rfl, rfl, rfl, rfl⟩
  · exact absurd (hp.symm.trans hq) (by decide)
  · exact absurd (hp.symm.trans hq) (by decide)
  · obtain ⟨rfl, rfl⟩ := List.append_inj he (hip.trans hip'.symm)
    exact ⟨rfl, rfl, rfl, rfl, rfl⟩

end Defrizer.FrameGrammar
