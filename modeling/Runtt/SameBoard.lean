import Runtt.Resolve

/-! # One board under two names

A board can be named by its port, by its serial, by a path to its device and by a link to
that path; on a bus a node id can be written in two bases.  Occupancy is claimed on
`lock_key`, so what matters is that all names of one board resolve to one key.

By port the udev tree is looked at first, then sysfs; by serial only sysfs.  Where a board's
ttys agree on the serial, the candidates of the port are the candidates of the serial
(`filter_serial_eq_filter_port`), and a tree that links to exactly their channels gives what
they give (`fromUdevTree_eq`).
-/
namespace Runtt
namespace Resolve

theorem toDigit_digitChar {d : Nat} (h : d < 16) : Text.toDigit 16 d.digitChar = some d := by
  have hall : ∀ d < 16, Text.toDigit 16 d.digitChar = some d := by decide
  exact hall d h

/-- What is read off the hexadecimal digits of a number is the number. -/
theorem digitsValue_toDigits (n : Nat) : Text.digitsValue 16 (Nat.toDigits 16 n) = some n := by
  have hfold : (Nat.toDigits 16 n).foldl
      (fun acc c => do return (← acc) * 16 + (← Text.toDigit 16 c)) (some 0) = some n := by
    induction n using Nat.strongRecOn with
    | ind n ih =>
      rw [Nat.toDigits_eq_if (by decide)]
      split
      · rename_i hlt
        simp [toDigit_digitChar hlt]
      · rename_i hge
        have hsmall : n / 16 < n := Nat.div_lt_self (by omega) (by decide)
        rw [List.foldl_append, ih _ hsmall]
        simp [toDigit_digitChar (Nat.mod_lt n (by decide)), Nat.div_add_mod']
  unfold Text.digitsValue
  split
  · rename_i hnil
    exact absurd hnil Nat.toDigits_ne_nil
  · exact hfold

theorem hexNumber_injective {m n : Nat} (h : Text.hexNumber m = Text.hexNumber n) : m = n := by
  have hdigits : Nat.toDigits 16 m = Nat.toDigits 16 n := by
    have hlist := congrArg String.toList h
    simp only [Text.hexNumber, String.toList_append, String.toList_ofList] at hlist
    exact List.append_cancel_left hlist
  have hvalue := digitsValue_toDigits m
  rw [hdigits, digitsValue_toDigits] at hvalue
  exact (Option.some.inj hvalue).symm

/-! ## By port and by serial -/

/-- What a link of `/dev/runtt` leads to. -/
def linkTarget (h : Host) (name : String) : String :=
  (h.canonicalize (Text.join "/dev/runtt" name)).getD (Text.join "/dev/runtt" name)

/-- The tty on `port` with that interface descriptor. -/
structure ChannelOf (h : Host) (ttys : List String) (port iface tty : String) : Prop where
  mem : tty ∈ ttys
  onPort : ttyPortPath h tty = some port
  interface : ttyInterface h tty = some iface

/-- `/dev/runtt` links to the management and the log channel of the board on `port` and to
nothing else there. -/
structure TreeOf (h : Host) (ttys : List String) (port : String) (names : List String) :
    Prop where
  read : h.readDir "/dev/runtt" = .ok (names.map .ok)
  links : ∀ name ∈ names, ∀ tty, Text.fileName (linkTarget h name) = some tty →
    ttyPortPath h tty = some port → linkTarget h name = Text.join "/dev" tty ∧
      (Text.endsWith name "-mgmt" = true ∧ ChannelOf h ttys port IFACE_MGMT tty ∨
        Text.endsWith name "-log" = true ∧ ChannelOf h ttys port IFACE_LOG tty)
  mgmt : ∀ tty, ChannelOf h ttys port IFACE_MGMT tty → ∃ name ∈ names,
    Text.endsWith name "-mgmt" = true ∧ Text.fileName (linkTarget h name) = some tty
  log : ∀ tty, ChannelOf h ttys port IFACE_LOG tty → ∃ name ∈ names,
    Text.endsWith name "-log" = true ∧ Text.fileName (linkTarget h name) = some tty

/-- The serial is published on the port and nowhere else, and the ttys of the port are the
channels of one board. -/
structure SoleBoard (h : Host) (ttys : List String) (port serial : String) : Prop where
  scan : scanTtys h = .ok (ttys.map (candidate h))
  published : ∃ t ∈ ttys, ttySerial h t = some serial
  only : ∀ t ∈ ttys, ttySerial h t = some serial → ttyPortPath h t = some port
  sameSerial : ∀ t ∈ ttys, ∀ t' ∈ ttys, ttyPortPath h t = some port →
    ttyPortPath h t' = some port → ttySerial h t = ttySerial h t'
  oneChannel : ∀ iface t t', iface = IFACE_MGMT ∨ iface = IFACE_LOG →
    ChannelOf h ttys port iface t → ChannelOf h ttys port iface t' → t = t'
  tree : h.isDir "/dev/runtt" = true → ∃ names, TreeOf h ttys port names

/-- No name ends in both suffixes. -/
theorem not_endsWith_mgmt_of_log {name : String} (h : Text.endsWith name "-log" = true) :
    Text.endsWith name "-mgmt" = false := by
  rw [Bool.eq_false_iff]
  intro hmgmt
  rw [Text.endsWith, List.isSuffixOf_iff_suffix] at h hmgmt
  exact absurd (List.suffix_of_suffix_length_le h hmgmt (by decide)) (by decide)

/-- The entry counts for `port`, under that suffix. -/
def isLink (h : Host) (port suffix name : String) : Bool :=
  match Text.fileName (linkTarget h name) with
  | some tty => decide (ttyPortPath h tty = some port) && Text.endsWith name suffix
  | none => false

theorem isLink_iff {h : Host} {port suffix name : String} :
    isLink h port suffix name = true ↔ ∃ tty, Text.fileName (linkTarget h name) = some tty ∧
      ttyPortPath h tty = some port ∧ Text.endsWith name suffix = true := by
  unfold isLink
  cases Text.fileName (linkTarget h name) <;> simp

/-- The last link of each kind. -/
def lastLink (h : Host) (port suffix : String) (names : List String) : Option String :=
  (names.filter (isLink h port suffix)).getLast?.map (linkTarget h)

theorem lastLink_cons {h : Host} {port suffix name : String} {names : List String}
    {found : Option String} :
    (lastLink h port suffix (name :: names)).or found =
      (lastLink h port suffix names).or
        (if isLink h port suffix name = true then some (linkTarget h name) else found) := by
  unfold lastLink
  rw [List.filter_cons]
  split
  · rename_i hlink
    rw [List.getLast?_cons]
    cases (names.filter (isLink h port suffix)).getLast? <;> simp
  · rfl

/-- **The tree is searched to its end**, and the last link of a kind wins. -/
theorem udevEntries_eq (h : Host) (port : String) (mgmt log : Option String)
    (names : List String) :
    udevEntries h port mgmt log (names.map .ok) =
      .ok ((lastLink h port "-mgmt" names).or mgmt, (lastLink h port "-log" names).or log) := by
  induction names generalizing mgmt log with
  | nil => rfl
  | cons name names ih =>
    rw [lastLink_cons, lastLink_cons, List.map_cons, udevEntries]
    simp only [ih]
    have htarget : (h.canonicalize (Text.join "/dev/runtt" name)).getD
        (Text.join "/dev/runtt" name) = linkTarget h name := rfl
    rw [htarget]
    unfold isLink
    split
    · rename_i hfile
      simp [hfile]
    · rename_i tty hfile
      simp only [hfile]
      by_cases hport : ttyPortPath h tty = some port
      · by_cases hmgmt : Text.endsWith name "-mgmt" = true
        · have hlog : Text.endsWith name "-log" = false := by
            rw [Bool.eq_false_iff]
            intro hlog
            rw [not_endsWith_mgmt_of_log hlog] at hmgmt
            cases hmgmt
          simp [hport, hmgmt, hlog]
        · by_cases hlog : Text.endsWith name "-log" = true
          · simp [hport, hmgmt, hlog]
          · simp [hport, hmgmt, hlog]
      · simp [hport]

section SoleBoard
variable {h : Host} {ttys : List String} {port serial : String}

/-- The candidates of the serial are the candidates of the port. -/
theorem filter_serial_eq_filter_port (hb : SoleBoard h ttys port serial) :
    ((ttys.map (candidate h)).filter fun c => c.serial == some serial) =
      (ttys.map (candidate h)).filter fun c => c.portPath == some port := by
  apply List.filter_congr
  intro c hc
  obtain ⟨t, ht, rfl⟩ := List.mem_map.mp hc
  obtain ⟨t', ht', hserial'⟩ := hb.published
  have hiff : ttySerial h t = some serial ↔ ttyPortPath h t = some port := by
    constructor
    · exact hb.only t ht
    · intro hport
      rw [hb.sameSerial t ht t' ht' hport (hb.only t' ht' hserial')]
      exact hserial'
  rw [Bool.eq_iff_iff, beq_iff_eq, beq_iff_eq]
  exact hiff

/-- The candidates of the board. -/
def boardCandidates (h : Host) (ttys : List String) (port : String) : List Candidate :=
  (ttys.map (candidate h)).filter fun c => c.portPath == some port

theorem mem_boardCandidates {c : Candidate} :
    c ∈ boardCandidates h ttys port ↔
      ∃ t ∈ ttys, ttyPortPath h t = some port ∧ c = candidate h t := by
  rw [boardCandidates, List.mem_filter, List.mem_map, beq_iff_eq]
  constructor
  · rintro ⟨⟨t, ht, rfl⟩, hport⟩
    exact ⟨t, ht, hport, rfl⟩
  · rintro ⟨t, ht, hport, rfl⟩
    exact ⟨⟨t, ht, rfl⟩, hport⟩

/-- A channel of the board is found by its descriptor. -/
theorem channel_of_board (hb : SoleBoard h ttys port serial) {iface tty : String}
    (hiface : iface = IFACE_MGMT ∨ iface = IFACE_LOG) (htty : ChannelOf h ttys port iface tty) :
    channel iface (boardCandidates h ttys port) = some (Text.join "/dev" tty) := by
  refine channel_eq_some (c := candidate h tty)
    (mem_boardCandidates.mpr ⟨tty, htty.mem, htty.onPort, rfl⟩) htty.interface ?_
  intro d hd hdiface
  obtain ⟨t, ht, hport, rfl⟩ := mem_boardCandidates.mp hd
  rw [hb.oneChannel iface t tty hiface ⟨ht, hport, hdiface⟩ htty]

/-- What is found by a descriptor is a channel of the board. -/
theorem channelOf_of_channel {iface dev : String}
    (hfound : channel iface (boardCandidates h ttys port) = some dev) :
    ∃ tty, ChannelOf h ttys port iface tty ∧ dev = Text.join "/dev" tty := by
  obtain ⟨c, hc, rfl⟩ := Option.map_eq_some_iff.mp hfound
  obtain ⟨t, ht, hport, rfl⟩ := mem_boardCandidates.mp (List.mem_of_find?_eq_some hc)
  have hiface : (candidate h t).interface = some iface := by simpa using List.find?_some hc
  exact ⟨t, ⟨ht, hport, hiface⟩, rfl⟩

/-- The last link of a kind leads to the channel the scan finds, if there is one. -/
theorem lastLink_eq_channel (hb : SoleBoard h ttys port serial) {names : List String}
    {iface suffix : String}
    (hiface : iface = IFACE_MGMT ∨ iface = IFACE_LOG)
    (hlinks : ∀ name ∈ names, isLink h port suffix name = true →
      ∃ tty, linkTarget h name = Text.join "/dev" tty ∧ ChannelOf h ttys port iface tty)
    (hall : ∀ tty, ChannelOf h ttys port iface tty → ∃ name ∈ names,
      isLink h port suffix name = true) :
    lastLink h port suffix names = channel iface (boardCandidates h ttys port) := by
  unfold lastLink
  cases hlast : (names.filter (isLink h port suffix)).getLast? with
  | some name =>
    obtain ⟨hname, hlink⟩ := List.mem_filter.mp (List.mem_of_getLast? hlast)
    obtain ⟨tty, htarget, htty⟩ := hlinks name hname hlink
    rw [Option.map_some, htarget, channel_of_board hb hiface htty]
  | none =>
    cases hfound : channel iface (boardCandidates h ttys port) with
    | none => rfl
    | some dev =>
      obtain ⟨tty, htty, -⟩ := channelOf_of_channel hfound
      obtain ⟨name, hname, hlink⟩ := hall tty htty
      have hnil := List.getLast?_eq_none_iff.mp hlast
      have hmem : name ∈ names.filter (isLink h port suffix) := List.mem_filter.mpr ⟨hname, hlink⟩
      rw [hnil] at hmem
      cases hmem

/-- **The udev tree says what the scan says**, as soon as it knows a management channel. -/
theorem fromUdevTree_eq (hb : SoleBoard h ttys port serial) :
    fromUdevTree h port = .ok none ∨
      fromUdevTree h port = .ok ((channel IFACE_MGMT (boardCandidates h ttys port)).map fun mgmt =>
        .serial mgmt (channel IFACE_LOG (boardCandidates h ttys port))) := by
  unfold fromUdevTree
  by_cases hdir : h.isDir "/dev/runtt" = true
  · obtain ⟨names, htree⟩ := hb.tree hdir
    have hmgmt : lastLink h port "-mgmt" names =
        channel IFACE_MGMT (boardCandidates h ttys port) := by
      refine lastLink_eq_channel hb (.inl rfl) ?_ ?_
      · intro name hname hlink
        obtain ⟨tty, hfile, hport, hsuffix⟩ := isLink_iff.mp hlink
        obtain ⟨htarget, ⟨-, htty⟩ | ⟨hlog, -⟩⟩ := htree.links name hname tty hfile hport
        · exact ⟨tty, htarget, htty⟩
        · rw [not_endsWith_mgmt_of_log hlog] at hsuffix
          cases hsuffix
      · intro tty htty
        obtain ⟨name, hname, hsuffix, hfile⟩ := htree.mgmt tty htty
        exact ⟨name, hname, isLink_iff.mpr ⟨tty, hfile, htty.onPort, hsuffix⟩⟩
    have hlog : lastLink h port "-log" names = channel IFACE_LOG (boardCandidates h ttys port) := by
      refine lastLink_eq_channel hb (.inr rfl) ?_ ?_
      · intro name hname hlink
        obtain ⟨tty, hfile, hport, hsuffix⟩ := isLink_iff.mp hlink
        obtain ⟨htarget, ⟨hmgmt, -⟩ | ⟨-, htty⟩⟩ := htree.links name hname tty hfile hport
        · rw [not_endsWith_mgmt_of_log hsuffix] at hmgmt
          cases hmgmt
        · exact ⟨tty, htarget, htty⟩
      · intro tty htty
        obtain ⟨name, hname, hsuffix, hfile⟩ := htree.log tty htty
        exact ⟨name, hname, isLink_iff.mpr ⟨tty, hfile, htty.onPort, hsuffix⟩⟩
    refine .inr ?_
    rw [hdir, htree.read]
    simp only [Bool.not_true, Bool.false_eq_true, if_false, bind_ok, udevEntries_eq, hmgmt, hlog,
      Option.or_none]
  · refine .inl ?_
    rw [Bool.not_eq_true] at hdir
    rw [hdir]
    rfl

theorem pick_ok_iff {what what' : String} {matching : List Candidate} {r : Resolved} :
    pick what matching = .ok r ↔ pick what' matching = .ok r := by
  unfold pick
  cases channel IFACE_MGMT matching with
  | some mgmt => exact Iff.rfl
  | none =>
    match matching with
    | [] => exact ⟨fun h => (by cases h), fun h => (by cases h)⟩
    | [c] => exact Iff.rfl
    | _ :: _ :: _ => exact ⟨fun h => (by cases h), fun h => (by cases h)⟩

/-- **By port and by serial a board resolves to the same channels.** -/
theorem resolveUsb_iff_resolveUsbSerial (hb : SoleBoard h ttys port serial) (r : Resolved) :
    resolveUsb h port = .ok r ↔ resolveUsbSerial h serial = .ok r := by
  obtain ⟨t, ht, hserial⟩ := hb.published
  have hmem : candidate h t ∈ ttys.map (candidate h) := List.mem_map_of_mem ht
  have hboard : candidate h t ∈ boardCandidates h ttys port :=
    mem_boardCandidates.mpr ⟨t, ht, hb.only t ht hserial, rfl⟩
  have hbySerial : resolveUsbSerial h serial =
      pick s!"with serial {debugStr serial}" (boardCandidates h ttys port) := by
    rw [resolveUsbSerial, hb.scan, context_ok, bind_ok, resolveSerialAmong_of_one_port hmem hserial,
      filter_serial_eq_filter_port hb]
    · rfl
    · intro d hd hdserial
      obtain ⟨t', ht', rfl⟩ := List.mem_map.mp hd
      exact (hb.only t' ht' hdserial).trans (hb.only t ht hserial).symm
  have hbyScan : (context "failed to scan sysfs for tty devices" (scanTtys h) >>=
      resolvePortAmong port) = pick s!"at usb:{port}" (boardCandidates h ttys port) := by
    rw [hb.scan, context_ok, bind_ok]
    exact if_neg (List.ne_nil_of_mem hboard)
  rw [hbySerial]
  unfold resolveUsb
  rcases fromUdevTree_eq hb with hnone | hsome
  · rw [hnone, bind_ok]
    simp only
    rw [hbyScan]
    exact pick_ok_iff
  · rw [hsome, bind_ok]
    cases hmgmt : channel IFACE_MGMT (boardCandidates h ttys port) with
    | none =>
      simp only [Option.map_none]
      rw [hbyScan]
      exact pick_ok_iff
    | some mgmt =>
      simp only [Option.map_some]
      rw [pick_of_channel hmgmt]

/-- The two `usb:` labels of a board. -/
theorem resolve_usb_labels (hb : SoleBoard h ttys port serial) (hport : isPortPath port = true)
    (hserial : isPortPath serial = false) (r : Resolved) :
    (Target.parse ("usb:" ++ port) >>= resolve h) = .ok r ↔
      (Target.parse ("usb:" ++ serial) >>= resolve h) = .ok r := by
  have hbyPort : UsbSelector.parse port = .portPath port := if_pos hport
  have hbySerial : UsbSelector.parse serial = .serial serial := by
    rw [UsbSelector.parse, hserial]
    rfl
  rw [Target.parse_usb, Target.parse_usb, hbyPort, hbySerial]
  exact resolveUsb_iff_resolveUsbSerial hb r

end SoleBoard

/-! ## On a bus, and through links -/

theorem resolve_can {h : Host} {iface nodeId : String} {r : Resolved}
    (hr : resolve h (.can iface nodeId) = .ok r) :
    ∃ n, nodeNumber nodeId = some n ∧ r = .can iface n none := by
  simp only [resolve, parseNodeId] at hr
  split at hr
  · cases hr
  · rename_i n hn
    split at hr
    · cases hr
    · split at hr
      · cases hr
      · rw [bind_ok] at hr
        split at hr
        · cases hr
        · cases hr
          exact ⟨n, hn, rfl⟩

/-- **Two node ids on one bus have one key exactly when they are one number.** -/
theorem lockKey_can_iff {h : Host} {iface nodeId₁ nodeId₂ : String} {r₁ r₂ : Resolved}
    (h₁ : resolve h (.can iface nodeId₁) = .ok r₁) (h₂ : resolve h (.can iface nodeId₂) = .ok r₂) :
    r₁.lockKey h = r₂.lockKey h ↔ nodeNumber nodeId₁ = nodeNumber nodeId₂ := by
  obtain ⟨m, hm, rfl⟩ := resolve_can h₁
  obtain ⟨n, hn, rfl⟩ := resolve_can h₂
  rw [hm, hn]
  constructor
  · intro hkey
    have hlist := congrArg String.toList hkey
    simp only [Resolved.lockKey, String.toList_append, List.append_assoc] at hlist
    have hhex := List.append_cancel_left (List.append_cancel_left (List.append_cancel_left hlist))
    rw [hexNumber_injective (String.toList_injective hhex)]
  · intro hsame
    rw [Option.some.inj hsame]

/-- The path of a `tty:` label. -/
def ttyPath (device : String) : String :=
  if Text.startsWith device "/" then device else Text.join "/dev" device

theorem resolve_tty {h : Host} {device : String} {r : Resolved}
    (hr : resolve h (.tty device) = .ok r) : r = .serial (ttyPath device) none := by
  have hpath : resolve h (.tty device) =
      if !h.pathExists (ttyPath device) then .error [s!"{ttyPath device} does not exist"]
      else .ok (.serial (ttyPath device) none) := rfl
  rw [hpath] at hr
  split at hr
  · cases hr
  · cases hr
    rfl

/-- **Two paths to one device have one key.** -/
theorem lockKey_tty {h : Host} {device₁ device₂ dev : String} {r₁ r₂ : Resolved}
    (h₁ : resolve h (.tty device₁) = .ok r₁) (h₂ : resolve h (.tty device₂) = .ok r₂)
    (hdev₁ : h.canonicalize (ttyPath device₁) = some dev)
    (hdev₂ : h.canonicalize (ttyPath device₂) = some dev) : r₁.lockKey h = r₂.lockKey h := by
  rw [resolve_tty h₁, resolve_tty h₂, Resolved.lockKey, Resolved.lockKey, hdev₁, hdev₂]
  rfl

end Resolve
end Runtt
