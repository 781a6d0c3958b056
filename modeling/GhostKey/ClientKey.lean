import GhostKey.Foundation.Text
import GhostKey.IpText
import GhostKey.RateLimit
import GhostKey.Server

/-!
# The Key of a Client

The rate limiter counts by the address of the client. Behind a proxy that is the address a header
names, and a header is what the client likes it to be, but for the part the proxy wrote. Headers
count only where the peer is a trusted proxy; `X-Forwarded-For` is walked from its right end, where
the proxies write, and of several lines of it only the first is looked at.

Layers:
1. `clientKey`, over any headers, and `enforce`;
2. `Forwarded`: the requests of a client behind a trusted proxy;
3. `clientKey_eq_iff`: when the key of such a request is the client's own address;
4. `resists_iff`: what the client can do about it.
-/

namespace GhostKey

open Foundation PushGuard

namespace ClientKey

/-! ## §1 The key -/

/-- A network in one of the families: an address and the length of its prefix. -/
inductive IpNet where
  | v4 (ip : Ipv4Addr) (len : Fin 33)
  | v6 (ip : Ipv6Addr) (len : Fin 129)

/-- `IpNet::contains`. -/
def IpNet.contains : IpNet → IpAddr → Bool
  | .v4 net len, .v4 ip => (⟨net.value, 32 - len⟩ : Block).covers ip.value
  | .v6 net len, .v6 ip =>
      let value := fun ip => Block.number 16 ((IpText.segments ip).map UInt16.toNat)
      (⟨value net, 128 - len⟩ : Block).covers (value ip)
  | _, _ => false

structure TrustedProxies where
  networks : List IpNet

def trim (s : List Char) : List Char := Text.trimBy isWhiteSpace s

namespace TrustedProxies

/-- `TrustedProxies::from_env`, of the variable's text and with the parser of networks. One
entry that is none, and no header counts. -/
def fromEnv (parse : List Char → Option IpNet) (raw : Option (List Char)) : TrustedProxies :=
  match raw with
  | none => ⟨[]⟩
  | some raw =>
      let items := ((raw.splitOn ',').map trim).filter fun item => item ≠ []
      ⟨(items.mapM parse).getD []⟩

def contains (trusted : TrustedProxies) (ip : IpAddr) : Bool :=
  trusted.networks.any fun network => network.contains ip

end TrustedProxies

/-- A header's value: bytes, but no control character other than the tab. -/
structure HeaderValue where
  bytes : List UInt8
  legal : ∀ b ∈ bytes, (32 ≤ b ∧ b ≠ 127) ∨ b = 9

namespace HeaderValue

/-- The bytes as letters. -/
def text (v : HeaderValue) : List Char := v.bytes.map fun b => Char.ofNat b.toNat

/-- Every letter is one of visible ASCII, or a tab. -/
def Visible (v : HeaderValue) : Prop := ∀ b ∈ v.bytes, (32 ≤ b ∧ b < 127) ∨ b = 9

instance (v : HeaderValue) : Decidable v.Visible := inferInstanceAs (Decidable (∀ _ ∈ _, _))

/-- `HeaderValue::to_str`. -/
def toStr (v : HeaderValue) : Option (List Char) := if v.Visible then some v.text else none

end HeaderValue

/-- The lines of a request's headers, their names in lower case. -/
abbrev HeaderMap := List (String × HeaderValue)

namespace HeaderMap

/-- `HeaderMap::get`: the first line of that name. -/
def get (headers : HeaderMap) (name : String) : Option HeaderValue :=
  (headers.find? fun line => line.1 = name).map Prod.snd

def getAll (headers : HeaderMap) (name : String) : List HeaderValue :=
  (headers.filter fun line => line.1 = name).map Prod.snd

end HeaderMap

structure SocketAddr where
  ip : IpAddr
  port : UInt16

/-- The address a text between white space is of. -/
def address (part : List Char) : Option IpAddr := IpText.parse (trim part)

/-- The walk from the right end: trusted hops are passed by. -/
def effective (trusted : TrustedProxies) (parts : List (List Char)) : Option IpAddr :=
  (parts.reverse.filterMap address).find? fun ip => !trusted.contains ip

/-- `client_key`. -/
def clientKey (headers : HeaderMap) (peer : Option SocketAddr) (trusted : TrustedProxies) :
    List Char :=
  let fallback := match peer with
    | some addr => IpText.text addr.ip
    | none => "unknown".toList
  if peer.any fun addr => trusted.contains addr.ip then
    match ((headers.get "fly-client-ip").bind HeaderValue.toStr).bind address with
    | some ip => IpText.text ip
    | none =>
        match (headers.get "x-forwarded-for").bind HeaderValue.toStr with
        | some value =>
            match effective trusted (value.splitOn ',') with
            | some ip => IpText.text ip
            | none => fallback
        | none => fallback
  else fallback

structure Request where
  headers : HeaderMap
  peer : Option SocketAddr

/-- `enforce`: the request goes on, or is told when to come again. -/
def enforce (l : RateLimit.Limiter) (trusted : TrustedProxies) (map : RateLimit.Buckets)
    (q : Request) (now : Instant) : Except ℕ Unit × RateLimit.Buckets :=
  l.tryAcquire map (.ofList (clientKey q.headers q.peer trusted)) now

/-! ## §2 Clients behind a proxy -/

/-- The parts of a line. -/
def entries (line : HeaderValue) : List (List Char) := line.text.splitOn ','

/-- A request of the client at `real` that a trusted proxy passes on. Of the parts of
`X-Forwarded-For`, on however many lines they come, the first are the client's own; after them the
proxy has written the client's address, and further proxies theirs. -/
structure Forwarded (trusted : TrustedProxies) (real : IpAddr) (proxy : SocketAddr)
    (client : List (List Char)) (q : Request) : Prop where
  peer : q.peer = some proxy
  proxy_trusted : trusted.contains proxy.ip = true
  /-- `Fly-Client-IP` is overwritten or left out. -/
  fly : q.headers.getAll "fly-client-ip" = [] ∨
    ∃ line, q.headers.getAll "fly-client-ip" = [line] ∧ line.toStr.bind address = some real
  appended : ∃ part hops,
    (q.headers.getAll "x-forwarded-for").flatMap entries = client ++ part :: hops ∧
      address part = some real ∧ ∀ hop ∈ hops, ∃ ip, address hop = some ip ∧ trusted.contains ip

/-- The address is the last of a line that is no trusted hop's. -/
def LastUntrusted (trusted : TrustedProxies) (parts : List (List Char)) (ip : IpAddr) : Prop :=
  trusted.contains ip = false ∧ ∃ before part after, parts = before ++ part :: after ∧
    address part = some ip ∧
      ∀ hop ∈ after, ∀ ip, address hop = some ip → trusted.contains ip = true

/-- Every address of a line is a trusted hop's. -/
def AllTrusted (trusted : TrustedProxies) (parts : List (List Char)) : Prop :=
  ∀ part ∈ parts, ∀ ip, address part = some ip → trusted.contains ip = true

/-- What the limiter needs to see the client. -/
inductive Seen (trusted : TrustedProxies) (real : IpAddr) (proxy : SocketAddr)
    (client : List (List Char)) (q : Request) : Prop where
  /-- `Fly-Client-IP` is overwritten. -/
  | overwritten (line : q.headers.getAll "fly-client-ip" ≠ [])
  /-- The first line is one the proxy has written in. -/
  | reached {line lines} (first : q.headers.getAll "x-forwarded-for" = line :: lines)
      (visible : line.Visible) (untrusted : trusted.contains real = false)
      (proxied : client.length < (entries line).length)
  /-- The first line is all the client's, who tells the truth in it. -/
  | honest {line lines} (first : q.headers.getAll "x-forwarded-for" = line :: lines)
      (visible : line.Visible) (own : (entries line).length ≤ client.length)
      (last : LastUntrusted trusted (entries line) real)
  /-- The client is on the proxy's host, and the first line names no one else. -/
  | fallback {line lines} (first : q.headers.getAll "x-forwarded-for" = line :: lines)
      (same : real = proxy.ip) (silent : line.Visible → AllTrusted trusted (entries line))

/-! ## §3 The key of a forwarded request -/

section
variable {trusted : TrustedProxies} {real : IpAddr} {proxy : SocketAddr}
  {client : List (List Char)} {q : Request} {headers : HeaderMap} {name : String}

theorem get_eq_head? : headers.get name = (headers.getAll name).head? := by
  rw [HeaderMap.get, HeaderMap.getAll, List.head?_map, List.head?_filter]

/-- The walk ends at the last address that is no trusted hop's. -/
theorem effective_eq_some_iff {parts : List (List Char)} {ip : IpAddr} :
    effective trusted parts = some ip ↔ LastUntrusted trusted parts ip := by
  unfold effective LastUntrusted
  rw [List.find?_filterMap, Option.bind_eq_some_iff]
  constructor
  · rintro ⟨part, found, part_ip⟩
    obtain ⟨untrusted, after, before, split, passed⟩ := List.find?_eq_some_iff_append.1 found
    rw [part_ip] at untrusted
    refine ⟨by simpa using untrusted, before.reverse, part, after.reverse, ?_, part_ip, ?_⟩
    · rw [← List.reverse_reverse parts, split]
      simp
    · intro hop mem ip hop_ip
      have skipped := passed hop (List.mem_reverse.1 mem)
      simpa [hop_ip] using skipped
  · rintro ⟨untrusted, before, part, after, rfl, part_ip, passed⟩
    refine ⟨part, List.find?_eq_some_iff_append.2 ⟨?_, after.reverse, before.reverse, ?_, ?_⟩,
      part_ip⟩
    · simpa [part_ip] using untrusted
    · simp
    · intro hop mem
      cases hop_ip : address hop with
      | none => rfl
      | some ip => simp [passed hop (List.mem_reverse.1 mem) ip hop_ip]

theorem effective_eq_none_iff {parts : List (List Char)} :
    effective trusted parts = none ↔ AllTrusted trusted parts := by
  unfold effective
  simp only [List.find?_eq_none, List.mem_filterMap, List.mem_reverse, Bool.not_eq_true',
    Bool.not_eq_false]
  constructor
  · intro all part mem ip part_ip
    exact all ip ⟨part, mem, part_ip⟩
  · rintro all ip ⟨part, mem, part_ip⟩
    exact all part mem ip part_ip

/-- The proxy's part of a line is the last that counts. -/
theorem lastUntrusted_of_reached {parts rest : List (List Char)} {part : List Char}
    {hops : List (List Char)} (whole : parts ++ rest = client ++ part :: hops)
    (part_real : address part = some real)
    (hops_trusted : ∀ hop ∈ hops, ∃ ip, address hop = some ip ∧ trusted.contains ip)
    (untrusted : trusted.contains real = false) (reached : client.length < parts.length) :
    LastUntrusted trusted parts real := by
  rcases List.append_eq_append_iff.1 whole with ⟨more, client_eq, -⟩ | ⟨more, parts_eq, tail⟩
  · rw [client_eq, List.length_append] at reached
    omega
  · cases more with
    | nil =>
      rw [parts_eq, List.append_nil] at reached
      exact absurd reached (Nat.lt_irrefl _)
    | cons first more =>
      obtain ⟨rfl, rfl⟩ := List.cons_eq_cons.1 tail
      refine ⟨untrusted, client, part, more, parts_eq, part_real, ?_⟩
      intro hop mem ip hop_ip
      obtain ⟨ip', found, ip_trusted⟩ := hops_trusted hop (List.mem_append_left rest mem)
      rw [hop_ip] at found
      cases found
      exact ip_trusted

/-- The headers of a peer that is no trusted proxy do not count. -/
theorem clientKey_untrusted (headers : HeaderMap) {addr : SocketAddr}
    (untrusted : trusted.contains addr.ip = false) :
    clientKey headers (some addr) trusted = IpText.text addr.ip := by
  unfold clientKey
  simp [untrusted]

/-- What a trusted proxy wrote about itself. -/
theorem clientKey_overwritten {line : HeaderValue} (proxy_trusted : trusted.contains proxy.ip = true)
    (fly : headers.getAll "fly-client-ip" = [line]) (line_real : line.toStr.bind address = some real) :
    clientKey headers (some proxy) trusted = IpText.text real := by
  have first : headers.get "fly-client-ip" = some line := by rw [get_eq_head?, fly, List.head?_cons]
  unfold clientKey
  simp [proxy_trusted, first, line_real]

/-- Where it wrote nothing, the first line of `X-Forwarded-For` decides, if it can be read. -/
theorem clientKey_forwarded {line : HeaderValue} {lines : List HeaderValue}
    (proxy_trusted : trusted.contains proxy.ip = true)
    (fly : headers.getAll "fly-client-ip" = [])
    (xff : headers.getAll "x-forwarded-for" = line :: lines) :
    clientKey headers (some proxy) trusted =
      IpText.text ((if line.Visible then effective trusted (entries line) else none).getD proxy.ip) := by
  have no_fly : headers.get "fly-client-ip" = none := by rw [get_eq_head?, fly, List.head?_nil]
  have first : headers.get "x-forwarded-for" = some line := by
    rw [get_eq_head?, xff, List.head?_cons]
  unfold clientKey
  simp only [Option.any_some, proxy_trusted, if_true, no_fly, Option.bind_none, first,
    Option.bind_some, HeaderValue.toStr, entries]
  by_cases visible : line.Visible
  · rw [if_pos visible, if_pos visible]
    cases found : effective trusted (line.text.splitOn ',') with
    | none => simp [found]
    | some ip => simp [found]
  · rw [if_neg visible, if_neg visible]
    rfl

/-- The key is the client's address exactly where the limiter can see the client. -/
theorem clientKey_eq_iff (forwarded : Forwarded trusted real proxy client q) :
    clientKey q.headers q.peer trusted = IpText.text real ↔ Seen trusted real proxy client q := by
  obtain ⟨part, hops, whole, part_real, hops_trusted⟩ := forwarded.appended
  rw [forwarded.peer]
  rcases forwarded.fly with none | ⟨line, fly, line_real⟩
  · -- the part the proxy wrote is on some line
    cases xff : q.headers.getAll "x-forwarded-for" with
    | nil =>
      rw [xff] at whole
      simp at whole
    | cons line lines =>
      rw [clientKey_forwarded forwarded.proxy_trusted none xff]
      rw [xff, List.flatMap_cons] at whole
      -- the first line decides: its last address that is not a proxy of ours, or the peer
      constructor
      · intro same
        have ip_eq := IpText.text_injective same
        by_cases visible : line.Visible
        · rw [if_pos visible] at ip_eq
          cases found : effective trusted (entries line) with
          | none =>
            rw [found] at ip_eq
            exact .fallback xff ip_eq.symm fun _ => effective_eq_none_iff.1 found
          | some ip =>
            rw [found, Option.getD_some] at ip_eq
            have last := effective_eq_some_iff.1 found
            rw [ip_eq] at last
            -- the line reaches into the proxy's part, or the client wrote all of it
            rcases Nat.lt_or_ge client.length (entries line).length with proxied | own
            · exact .reached xff visible last.1 proxied
            · exact .honest xff visible own last
        · rw [if_neg visible] at ip_eq
          exact .fallback xff ip_eq.symm fun vis => absurd vis visible
      · intro seen
        congr 1
        cases seen with
        | overwritten fly => exact absurd none fly
        | reached first visible untrusted proxied =>
          cases first.symm.trans xff
          have last := lastUntrusted_of_reached whole part_real hops_trusted untrusted proxied
          rw [if_pos visible, effective_eq_some_iff.2 last, Option.getD_some]
        | honest first visible own last =>
          cases first.symm.trans xff
          rw [if_pos visible, effective_eq_some_iff.2 last, Option.getD_some]
        | fallback first same silent =>
          cases first.symm.trans xff
          by_cases visible : line.Visible
          · rw [if_pos visible, effective_eq_none_iff.2 (silent visible), Option.getD_none, same]
          · rw [if_neg visible, Option.getD_none, same]
  · -- overwritten, it names the client
    rw [clientKey_overwritten forwarded.proxy_trusted fly line_real]
    exact iff_of_true rfl (.overwritten (by rw [fly]; exact List.cons_ne_nil line []))

theorem mapM_eq_none {parse : List Char → Option IpNet} {items : List (List Char)}
    {item : List Char} (mem : item ∈ items) (invalid : parse item = none) :
    items.mapM parse = none := by
  induction items with
  | nil => cases mem
  | cons first items ih =>
    rw [List.mapM_cons]
    rcases List.mem_cons.1 mem with rfl | later
    · rw [invalid]
      rfl
    · cases parse first with
      | none => rfl
      | some network =>
        rw [ih later]
        rfl

/-- One entry of the variable that is no network, and no peer's headers count. -/
theorem clientKey_of_invalid {parse : List Char → Option IpNet} {raw item : List Char}
    (mem : item ∈ (raw.splitOn ',').map trim) (nonempty : item ≠ []) (invalid : parse item = none)
    (headers : HeaderMap) (addr : SocketAddr) :
    clientKey headers (some addr) (TrustedProxies.fromEnv parse (some raw)) =
      IpText.text addr.ip := by
  have kept : item ∈ ((raw.splitOn ',').map trim).filter fun item => item ≠ [] :=
    List.mem_filter.2 ⟨mem, by simpa using nonempty⟩
  apply clientKey_untrusted
  rw [TrustedProxies.fromEnv, mapM_eq_none kept invalid]
  rfl

/-- Peers that are no trusted proxies do not draw on each other's buckets, whatever headers they
send. -/
theorem enforce_foreign (l : RateLimit.Limiter) (map : RateLimit.Buckets) (now : Instant)
    {addr other : SocketAddr} (untrusted : trusted.contains addr.ip = false)
    (ne : addr.ip ≠ other.ip) (headers : HeaderMap) :
    (enforce l trusted map ⟨headers, some addr⟩ now).2 (.ofList (IpText.text other.ip)) =
      map (.ofList (IpText.text other.ip)) := by
  rw [enforce, clientKey_untrusted headers untrusted]
  apply RateLimit.tryAcquire_other
  intro same
  exact ne (IpText.text_injective (String.ofList_inj.1 same)).symm

/-! ## §4 What a client can do about its key -/

/-- Without a trusted proxy, nothing; behind one, two of its requests get its address for a key
exactly where the limiter can see the client in both. -/
theorem resists_iff (trusted : TrustedProxies) :
    (∀ headers addr, trusted.contains addr.ip = false →
      clientKey headers (some addr) trusted = IpText.text addr.ip) ∧
    ∀ real proxy client client' q q', Forwarded trusted real proxy client q →
      Forwarded trusted real proxy client' q' →
        ((clientKey q.headers q.peer trusted = clientKey q'.headers q'.peer trusted ∧
            clientKey q'.headers q'.peer trusted = IpText.text real) ↔
          Seen trusted real proxy client q ∧ Seen trusted real proxy client' q') := by
  constructor
  · exact fun headers addr untrusted => clientKey_untrusted headers untrusted
  · intro real proxy client client' q q' forwarded forwarded'
    rw [← clientKey_eq_iff forwarded, ← clientKey_eq_iff forwarded']
    constructor
    · rintro ⟨same, key⟩
      exact ⟨same.trans key, key⟩
    · rintro ⟨key, key'⟩
      exact ⟨key.trans key'.symm, key'⟩

end

section Spoofed

/-- The bytes of a text of ASCII. -/
def ascii (s : String) : List UInt8 := s.toList.map fun c => c.toNat.toUInt8

def privateNet : TrustedProxies := ⟨[.v4 ⟨10, 0, 0, 0⟩ 8]⟩

def edge : SocketAddr := ⟨.v4 ⟨10, 1, 2, 3⟩, 443⟩

def someone : IpAddr := .v4 ⟨203, 0, 113, 9⟩

/-- What the client made up on one line with what the proxy wrote. -/
def joined : Request where
  headers := [("x-forwarded-for", ⟨ascii "6.6.6.6, 203.0.113.9, 10.2.3.4", by decide +kernel⟩)]
  peer := some edge

/-- On a line of its own. -/
def apart : Request where
  headers := [("x-forwarded-for", ⟨ascii "6.6.6.6", by decide +kernel⟩),
    ("x-forwarded-for", ⟨ascii "203.0.113.9", by decide +kernel⟩)]
  peer := some edge

theorem forwarded_joined : Forwarded privateNet someone edge ["6.6.6.6".toList] joined where
  peer := rfl
  proxy_trusted := by decide +kernel
  fly := .inl (by decide +kernel)
  appended := ⟨" 203.0.113.9".toList, [" 10.2.3.4".toList], by decide +kernel, by decide +kernel, by
    rintro hop mem
    cases List.mem_singleton.1 mem
    exact ⟨.v4 ⟨10, 2, 3, 4⟩, by decide +kernel, by decide +kernel⟩⟩

theorem forwarded_apart : Forwarded privateNet someone edge ["6.6.6.6".toList] apart where
  peer := rfl
  proxy_trusted := by decide +kernel
  fly := .inl (by decide +kernel)
  appended := ⟨"203.0.113.9".toList, [], by decide +kernel, by decide +kernel,
    fun hop mem => absurd mem List.not_mem_nil⟩

/-- The proxy's part on the client's line is seen. -/
theorem resists_iff_joined :
    clientKey joined.headers joined.peer privateNet = IpText.text someone := by
  have seen : Seen privateNet someone edge ["6.6.6.6".toList] joined :=
    .reached rfl (by decide +kernel) (by decide +kernel) (by decide +kernel)
  exact (((resists_iff privateNet).2 someone edge _ _ joined joined forwarded_joined
    forwarded_joined).2 ⟨seen, seen⟩).2

/-- On the next line it is not, and the key is what the client made up. -/
theorem not_resists : ¬ ∀ trusted real proxy client client' q q',
    Forwarded trusted real proxy client q → Forwarded trusted real proxy client' q' →
      clientKey q.headers q.peer trusted = clientKey q'.headers q'.peer trusted ∧
        clientKey q'.headers q'.peer trusted = IpText.text real := by
  intro resists
  have key := (resists _ _ _ _ _ apart apart forwarded_apart forwarded_apart).2
  revert key
  decide +kernel

end Spoofed

end ClientKey

end GhostKey
