import GbEmu.Server.Base64
import GbEmu.Server.Framing

/-!
The upgrade of a connection to a stream of frames: the key of the request is sent back in
the response, with a text behind it, hashed and encoded. The hash is that of the library.
-/

namespace GbEmu.GameServer

open Text Util Messages GbEmu.Configuration

/-- `SHA1_Init`, `SHA1_Update` and `SHA1_Final`. -/
abbrev Sha1 := List UInt8 → List UInt8

def secretKey : Line := ascii "Sec-WebSocket-Key"

def magicKey : Line := ascii "258EAFA5-E914-47DA-95CA-C5AB0DC85B11"

/-- A header that `getKey` returns the value of. -/
def IsKey (line : Line) : Prop :=
  2 ≤ (split line colon).length ∧ (split line colon).getD 0 [] = secretKey

instance (line : Line) : Decidable (IsKey line) :=
  inferInstanceAs (Decidable (2 ≤ (split line colon).length ∧ _))

def getKey (headers : List Line) : Line :=
  match headers.tail.find? (IsKey ·) with
  | some line => trim ((split line colon).getD 1 [])
  | none => []

/-- The lines of the response. -/
def upgradeLines (sha1 : Sha1) (key : Line) : List Line :=
  [ascii "HTTP/1.1 " ++ decimal ResponseCode.http101.toNat ++ ascii " " ++
      ResponseCode.http101.message,
    ascii "Upgrade: websocket", ascii "Connection: Upgrade",
    ascii "Sec-WebSocket-Accept: " ++ Base64.encode (sha1 (key ++ magicKey))]

/-- What `handshake` writes, and none if it returns false before. -/
def handshake (sha1 : Sha1) (reads : List (List UInt8)) : Option (List UInt8) :=
  match wait reads with
  | none => none
  | some (headers, _) =>
    let key := getKey headers
    if key.isEmpty then none else some ((upgradeLines sha1 key).flatMap (· ++ crlf) ++ crlf)

/-! ## The client -/

/-- The request of a client, with the header that has its key among others. -/
def upgradeRequest (start : Line) (before : List Line) (key : Line) (after : List Line) :
    List UInt8 :=
  (start :: before ++ (secretKey ++ ascii ": " ++ key) :: after).flatMap (· ++ crlf) ++ crlf

def acceptField : Line := ascii "Sec-WebSocket-Accept: "

/-- A client goes over to frames: the response is an upgrade whose text decodes to the hash
of the key. -/
def Upgrades (sha1 : Sha1) (key : Line) (response : List UInt8) : Prop :=
  ∃ lines, firstRequest response = some (lines, []) ∧
    lines.head? = some (ascii "HTTP/1.1 101 Switching Protocols\r") ∧
    ascii "Upgrade: websocket\r" ∈ lines ∧ ascii "Connection: Upgrade\r" ∈ lines ∧
    ∃ accept, acceptField ++ accept ∈ lines ∧
      Base64.decode accept = sha1 (key ++ magicKey)

section Key

variable {key : Line} (hne : key ≠ []) (hkey : ∀ c ∈ key, c ≠ colon ∧ isSpace c = false)

include hne hkey

theorem trim_keyLine :
    trim (secretKey ++ ascii ": " ++ key ++ [carriageReturn]) = secretKey ++ ascii ": " ++ key := by
  have hplain : trim (secretKey ++ ascii ": " ++ key) = secretKey ++ ascii ": " ++ key := by
    refine trim_eq_self (fun c hc => ?_) fun c hc => ?_
    · obtain rfl : 0x53 = c := Option.some.inj hc
      rfl
    · rw [List.getLast?_append_of_ne_nil _ hne] at hc
      exact (hkey c (List.mem_of_getLast? hc)).2
  have hreturn : isSpace carriageReturn = true := rfl
  have hfront : (secretKey ++ ascii ": " ++ key ++ [carriageReturn]).dropWhile isSpace =
      secretKey ++ ascii ": " ++ key ++ [carriageReturn] := rfl
  have hfront' : (secretKey ++ ascii ": " ++ key).dropWhile isSpace =
      secretKey ++ ascii ": " ++ key := rfl
  rw [trim, hfront, List.rdropWhile_concat_pos isSpace _ _ hreturn]
  rw [trim, hfront'] at hplain
  exact hplain

/-- The line of the key is taken apart into its name and its value. -/
theorem split_keyLine :
    split (secretKey ++ ascii ": " ++ key ++ [carriageReturn]) colon =
      [secretKey, 0x20 :: key] := by
  have hline : secretKey ++ ascii ": " ++ key = secretKey ++ colon :: (0x20 :: key) := by
    rw [List.append_assoc]
    rfl
  have hname : colon ∉ secretKey := by decide
  have hvalue : colon ∉ 0x20 :: key := by
    rw [List.mem_cons, not_or]
    exact ⟨by decide, fun h => (hkey colon h).1 rfl⟩
  rw [split, trim_keyLine hne hkey, hline, List.splitOn_append_cons_self_of_not_mem hname,
    List.splitOn_eq_singleton hvalue]
  rfl

omit hne in
theorem trim_value : trim (0x20 :: key) = key := by
  have hplain : trim key = key := by
    refine trim_eq_self (fun c hc => ?_) fun c hc => ?_
    · exact (hkey c (List.mem_of_mem_head? hc)).2
    · exact (hkey c (List.mem_of_getLast? hc)).2
  have hblank : (0x20 :: key).dropWhile isSpace = key.dropWhile isSpace :=
    List.dropWhile_cons_of_pos rfl
  rw [trim, hblank]
  exact hplain

end Key

/-- The first header with its name is the one that counts. -/
theorem getKey_request (start : Line) {before : List Line} {key : Line} (after : List Line)
    (hne : key ≠ []) (hkey : ∀ c ∈ key, c ≠ colon ∧ isSpace c = false)
    (hbefore : ∀ line ∈ before, ¬ IsKey line) :
    getKey (start :: before ++ (secretKey ++ ascii ": " ++ key ++ [carriageReturn]) :: after) =
      key := by
  have hsplit := split_keyLine hne hkey
  have hfound : IsKey (secretKey ++ ascii ": " ++ key ++ [carriageReturn]) := by
    unfold IsKey
    rw [hsplit]
    exact ⟨Nat.le_refl 2, rfl⟩
  have hnone : before.find? (IsKey ·) = none := by
    simpa using hbefore
  have hfind : (before ++ (secretKey ++ ascii ": " ++ key ++ [carriageReturn]) :: after).find?
      (IsKey ·) = some (secretKey ++ ascii ": " ++ key ++ [carriageReturn]) := by
    rw [List.find?_append, hnone, Option.none_or]
    exact List.find?_cons_of_pos (decide_eq_true hfound)
  unfold getKey
  rw [List.cons_append, List.tail_cons, hfind]
  simp only [hsplit]
  exact trim_value hkey

theorem upgradeLines_plain (sha1 : Sha1) (key : Line) :
    ∀ line ∈ upgradeLines sha1 key, newline ∉ line ∧ line ≠ [] := by
  have haccept : newline ∉ Base64.encode (sha1 (key ++ magicKey)) := fun h => by
    rcases Base64.encode_chars _ _ h with hplain | hpad
    · exact absurd hplain (by decide)
    · exact absurd hpad (by decide)
  have hfield : newline ∉ acceptField := by decide
  unfold upgradeLines
  simp only [List.forall_mem_cons, List.mem_append, not_or]
  refine ⟨by decide, by decide, by decide, ⟨⟨hfield, haccept⟩, List.cons_ne_nil _ _⟩,
    List.forall_mem_nil _⟩

/-- Whatever headers a client sends around its key and however the request is cut into reads,
the response makes it go over to frames. -/
theorem handshake_upgrades (sha1 : Sha1) {start : Line} {before after : List Line} {key : Line}
    (hne : key ≠ []) (hkey : ∀ c ∈ key, c ≠ colon ∧ isSpace c = false)
    (hbefore : ∀ line ∈ before, ¬ IsKey (line ++ [carriageReturn]))
    (hlines : ∀ line ∈ start :: before ++ after, newline ∉ line ∧ line ≠ [])
    {reads : List (List UInt8)} (hcut : Cut (upgradeRequest start before key after) reads) :
    ∃ response, handshake sha1 reads = some response ∧ Upgrades sha1 key response := by
  obtain ⟨hfront, hafter⟩ := List.forall_mem_append.mp hlines
  have hname : newline ∉ secretKey ++ ascii ": " := by decide
  have hkeyLine : newline ∉ secretKey ++ ascii ": " ++ key ∧
      secretKey ++ ascii ": " ++ key ≠ [] := by
    refine ⟨fun h => ?_, List.cons_ne_nil _ _⟩
    rcases List.mem_append.mp h with hn | hk
    · exact hname hn
    · exact absurd (hkey newline hk).2 (by decide)
  have hwait := wait_lines (List.forall_mem_append.mpr
    ⟨hfront, List.forall_mem_cons.mpr ⟨hkeyLine, hafter⟩⟩) hcut
  have hfound := getKey_request (start ++ [carriageReturn])
    (after.map (· ++ [carriageReturn]) ++ [[carriageReturn]]) hne hkey
    (List.forall_mem_map.mpr hbefore)
  have hheaders : (start :: before ++ (secretKey ++ ascii ": " ++ key) :: after).map
      (· ++ [carriageReturn]) ++ [[carriageReturn]] =
        (start ++ [carriageReturn]) :: before.map (· ++ [carriageReturn]) ++
          (secretKey ++ ascii ": " ++ key ++ [carriageReturn]) ::
            (after.map (· ++ [carriageReturn]) ++ [[carriageReturn]]) := by
    simp only [List.map_cons, List.map_append, List.cons_append, List.append_assoc]
  refine ⟨(upgradeLines sha1 key).flatMap (· ++ crlf) ++ crlf, ?_, ?_⟩
  · unfold handshake
    rw [hwait, hheaders]
    simp only [hfound]
    rw [if_neg (by simpa using hne)]
  · have hread := next_lines (upgradeLines_plain sha1 key) [] []
    rw [List.append_nil, List.nil_append] at hread
    have hstop : Base64.isPlain carriageReturn = false := by decide
    have hmem (line : Line) (hline : line ∈ upgradeLines sha1 key) :
        line ++ [carriageReturn] ∈
          (upgradeLines sha1 key).map (· ++ [carriageReturn]) ++ [[carriageReturn]] :=
      List.mem_append_left _ (List.mem_map_of_mem hline)
    refine ⟨_, hread, rfl, ?_, ?_,
      Base64.encode (sha1 (key ++ magicKey)) ++ [carriageReturn], ?_, ?_⟩
    · exact hmem (ascii "Upgrade: websocket") (by simp [upgradeLines])
    · exact hmem (ascii "Connection: Upgrade") (by simp [upgradeLines])
    · rw [← List.append_assoc]
      exact hmem _ (by simp [upgradeLines, acceptField])
    · rw [Base64.decode_append _ hstop, Base64.decode_encode]

/-- A request as browsers send it, byte by byte. -/
theorem handshake_upgrades_sample :
    let key := ascii "dGhlIHNhbXBsZSBub25jZQ=="
    let hash : List UInt8 := [0xB3, 0x7A, 0x4F, 0x2C, 0xC0, 0x62, 0x4F, 0x16, 0x90, 0xF6, 0x46,
      0x06, 0xCF, 0x38, 0x59, 0x45, 0xB2, 0xBE, 0xC4, 0xEA]
    let request := upgradeRequest (ascii "GET / HTTP/1.1")
      [ascii "Host: gameboy:1148", ascii "Upgrade: websocket"] key
      [ascii "Sec-WebSocket-Version: 13"]
    ∃ response, handshake (fun _ => hash) (request.map fun b => [b]) = some response ∧
      Upgrades (fun _ => hash) key response := by
  intro key hash request
  have hhost : ¬ IsKey (ascii "Host: gameboy:1148" ++ [carriageReturn]) := by decide
  have hupgrade : ¬ IsKey (ascii "Upgrade: websocket" ++ [carriageReturn]) := by decide
  exact handshake_upgrades (fun _ => hash) (by decide) (by decide +kernel)
    (List.forall_mem_cons.mpr ⟨hhost, List.forall_mem_cons.mpr ⟨hupgrade, List.forall_mem_nil _⟩⟩)
    (by decide +kernel) (cut_bytes request)

end GbEmu.GameServer
