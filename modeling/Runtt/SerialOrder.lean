import Runtt.Resolve

/-! # The order boards are listed in

`resolve_usb_serial` takes the first candidate with a descriptor, and sysfs lists ttys in no
particular order.  Where every candidate hangs on a port and no port shows a channel twice,
that choice is no choice: past the check for a second port all candidates of the serial are on
one port, so at most one of them has the descriptor (`length_channel_le_one`).  Everything else
the function looks at, a sorted list or a length, is the same in every order.
-/
namespace Runtt
namespace Resolve

/-! ## Lists up to order -/

/-- A search that can match once only finds the same thing in every order. -/
theorem find?_perm {α : Type} {p : α → Bool} {l l' : List α} (hperm : l.Perm l')
    (hone : (l.filter p).length ≤ 1) : l.find? p = l'.find? p := by
  have hfilter : (l.filter p).Perm (l'.filter p) := hperm.filter p
  have hsame : l.filter p = l'.filter p := by
    rcases Nat.le_one_iff_eq_zero_or_eq_one.mp hone with hnil | hsingle
    · rw [List.length_eq_zero_iff] at hnil
      rw [hnil] at hfilter ⊢
      exact hfilter.nil_eq
    · obtain ⟨a, ha⟩ := List.length_eq_one_iff.mp hsingle
      rw [ha] at hfilter ⊢
      exact List.singleton_perm.mp hfilter
  rw [← List.head?_filter, hsame, List.head?_filter]

/-- A sorted list without repetitions forgets the order it was collected in. -/
theorem sortDedup_perm {l l' : List String} (hperm : l.Perm l') :
    sortDedup l = sortDedup l' := by
  have hsorted : l.insertionSort (· ≤ ·) = l'.insertionSort (· ≤ ·) := by
    apply List.Perm.eq_of_pairwise' (List.pairwise_insertionSort (· ≤ ·) l)
      (List.pairwise_insertionSort (· ≤ ·) l')
    exact (List.perm_insertionSort _ l).trans (hperm.trans (List.perm_insertionSort _ l').symm)
  rw [sortDedup, hsorted, sortDedup]

/-! ## Picking in any order -/

/-- A tty with that descriptor, on that port. -/
def isChannel (port iface : String) (c : Candidate) : Bool :=
  c.portPath == some port && c.interface == some iface

/-- Every candidate hangs on a port, and no port shows a channel twice. -/
structure Attached (cs : List Candidate) : Prop where
  onPort : ∀ c ∈ cs, ∃ port, c.portPath = some port
  mgmt : ∀ port, (cs.filter (isChannel port IFACE_MGMT)).length ≤ 1
  log : ∀ port, (cs.filter (isChannel port IFACE_LOG)).length ≤ 1

/-- Candidates of one port hold a channel at most once if the port does. -/
theorem length_channel_le_one {serial port iface : String} {cs : List Candidate}
    (hport : ∀ c ∈ cs, c.serial = some serial → c.portPath = some port)
    (hone : (cs.filter (isChannel port iface)).length ≤ 1) :
    ((cs.filter fun c => c.serial == some serial).filter
      fun c => c.interface == some iface).length ≤ 1 := by
  rw [List.filter_filter]
  refine Nat.le_trans ?_ hone
  rw [← List.countP_eq_length_filter, ← List.countP_eq_length_filter]
  apply List.countP_mono_left
  intro c hc hboth
  rw [Bool.and_eq_true, beq_iff_eq, beq_iff_eq] at hboth
  rw [isChannel, Bool.and_eq_true, beq_iff_eq, beq_iff_eq]
  exact ⟨hport c hc hboth.2, hboth.1⟩

theorem channel_perm {iface : String} {matching matching' : List Candidate}
    (hperm : matching.Perm matching')
    (hone : (matching.filter fun c => c.interface == some iface).length ≤ 1) :
    channel iface matching = channel iface matching' := by
  rw [channel, find?_perm hperm hone, channel]

theorem pick_perm {what : String} {matching matching' : List Candidate}
    (hperm : matching.Perm matching')
    (hmgmt : (matching.filter fun c => c.interface == some IFACE_MGMT).length ≤ 1)
    (hlog : (matching.filter fun c => c.interface == some IFACE_LOG).length ≤ 1) :
    pick what matching = pick what matching' := by
  unfold pick
  rw [channel_perm hperm hmgmt, channel_perm hperm hlog]
  cases channel IFACE_MGMT matching' with
  | some mgmt => rfl
  | none =>
    -- no descriptor: the only tty there is, or an error that counts them
    match matching, hperm with
    | [], hperm => rw [hperm.nil_eq]
    | [c], hperm => rw [List.singleton_perm.mp hperm]
    | c :: d :: rest, hperm =>
      match matching', hperm.length_eq with
      | c' :: d' :: rest', hlen => simp only [hlen]

/-- What is picked are devices of candidates. -/
theorem pick_eq_ok {what : String} {matching : List Candidate} {r : Resolved}
    (h : pick what matching = .ok r) :
    ∃ mgmt log, r = .serial mgmt log ∧ (∃ c ∈ matching, c.dev = mgmt) ∧
      ∀ dev, log = some dev → ∃ c ∈ matching, c.dev = dev := by
  have hchannel : ∀ iface dev, channel iface matching = some dev →
      ∃ c ∈ matching, c.dev = dev := by
    intro iface dev hdev
    obtain ⟨c, hc, hcdev⟩ := Option.map_eq_some_iff.mp hdev
    exact ⟨c, List.mem_of_find?_eq_some hc, hcdev⟩
  unfold pick at h
  split at h
  · rename_i mgmt hmgmt
    cases h
    exact ⟨mgmt, _, rfl, hchannel _ _ hmgmt, hchannel _⟩
  · split at h
    · rename_i c _
      cases h
      exact ⟨c.dev, none, rfl, ⟨c, List.mem_singleton_self c, rfl⟩, fun _ hnone => nomatch hnone⟩
    · cases h

/-! ## Resolving in any order -/

section Attached
variable {cs cs' : List Candidate}

/-- The candidates of the serial are all on `port`. -/
def OnlyOn (cs : List Candidate) (serial port : String) : Prop :=
  ∀ c ∈ cs, c.serial = some serial → c.portPath = some port

/-- Behind the check for a second port there is one port. -/
theorem onlyOn_of_ports {serial : String} (hcs : Attached cs)
    (hsome : (cs.filter fun c => c.serial == some serial) ≠ [])
    (hports : (sortDedup ((cs.filter fun c => c.serial == some serial).filterMap
      Candidate.portPath)).length ≤ 1) :
    ∃ port, OnlyOn cs serial port := by
  obtain ⟨c, hc⟩ := List.exists_mem_of_ne_nil _ hsome
  have hccs : c ∈ cs := (List.mem_filter.mp hc).1
  obtain ⟨port, hport⟩ := hcs.onPort c hccs
  refine ⟨port, ?_⟩
  intro d hd hserial
  obtain ⟨port', hport'⟩ := hcs.onPort d hd
  have hdmatch : d ∈ cs.filter fun c => c.serial == some serial :=
    List.mem_filter.mpr ⟨hd, by rw [hserial]; exact beq_self_eq_true _⟩
  have hsame : port' = port :=
    length_sortDedup_le_one.mp hports port' (List.mem_filterMap.mpr ⟨d, hdmatch, hport'⟩)
      port (List.mem_filterMap.mpr ⟨c, hc, hport⟩)
  rw [hport', hsame]

/-- **The listing order decides nothing**, not even the text of an error. -/
theorem resolveSerialAmong_perm (hcs : Attached cs) (hperm : cs.Perm cs') (serial : String) :
    resolveSerialAmong serial cs = resolveSerialAmong serial cs' := by
  have hmatching : (cs.filter fun c => c.serial == some serial).Perm
      (cs'.filter fun c => c.serial == some serial) := hperm.filter _
  have hseen := sortDedup_perm
    ((hperm.filter fun c => c.interface == some IFACE_MGMT).filterMap Candidate.serial)
  have hports := sortDedup_perm (hmatching.filterMap Candidate.portPath)
  unfold resolveSerialAmong
  simp only
  rw [← hseen, ← hports]
  by_cases hnone : (cs.filter fun c => c.serial == some serial) = []
  · have hnone' : (cs'.filter fun c => c.serial == some serial) = [] := by
      rw [hnone] at hmatching
      exact hmatching.nil_eq.symm
    rw [if_pos hnone, if_pos hnone']
  · have hsome' : (cs'.filter fun c => c.serial == some serial) ≠ [] := by
      intro hnone'
      rw [hnone'] at hmatching
      exact hnone hmatching.eq_nil
    rw [if_neg hnone, if_neg hsome']
    split
    · rfl
    · rename_i hone
      obtain ⟨port, hport⟩ := onlyOn_of_ports hcs hnone (Nat.not_lt.mp hone)
      exact pick_perm hmatching (length_channel_le_one hport (hcs.mgmt port))
        (length_channel_le_one hport (hcs.log port))

/-- A tty of the board that publishes `serial`, on `port`. -/
def IsBoardTty (cs : List Candidate) (serial port dev : String) : Prop :=
  ∃ c ∈ cs, c.dev = dev ∧ c.serial = some serial ∧ c.portPath = some port

/-- The channels are ttys of one board on one port, and the serial is published nowhere else. -/
def FromOneBoard (cs : List Candidate) (serial : String) (r : Resolved) : Prop :=
  ∃ port mgmt log, r = .serial mgmt log ∧ IsBoardTty cs serial port mgmt ∧
    (∀ dev, log = some dev → IsBoardTty cs serial port dev) ∧ OnlyOn cs serial port

/-- **Boards are never mixed.** -/
theorem fromOneBoard_of_resolve {serial : String} {r : Resolved} (hcs : Attached cs)
    (h : resolveSerialAmong serial cs = .ok r) : FromOneBoard cs serial r := by
  obtain ⟨hsome, hports, hpick⟩ := resolveSerialAmong_picks h
  obtain ⟨port, hport⟩ := onlyOn_of_ports hcs hsome hports
  obtain ⟨mgmt, log, hr, hmgmt, hlog⟩ := pick_eq_ok hpick
  have htty : ∀ dev, (∃ c ∈ cs.filter fun c => c.serial == some serial, c.dev = dev) →
      IsBoardTty cs serial port dev := by
    rintro dev ⟨c, hc, hdev⟩
    rw [List.mem_filter, beq_iff_eq] at hc
    exact ⟨c, hc.1, hdev, hc.2, hport c hc.1 hc.2⟩
  exact ⟨port, mgmt, log, hr, htty mgmt hmgmt, fun dev hdev => htty dev (hlog dev hdev), hport⟩

/-! ### Through the scan -/

/-- The scan keeps the contract ttys, as listed. -/
theorem scanEntries_ok (h : Host) (ttys : List String) :
    scanEntries h (ttys.map .ok) = .ok ((ttys.filter (isContractTty h)).map (candidate h)) := by
  induction ttys with
  | nil => rfl
  | cons tty ttys ih =>
    rw [List.map_cons, scanEntries, ih, List.filter_cons]
    split
    · rfl
    · rfl

/-- The host with its class directory listed as `ttys`. -/
def listedAs (h : Host) (ttys : List String) : Host :=
  { h with readDir := fun path =>
      if path = "/sys/class/tty" then .ok (ttys.map .ok) else h.readDir path }

/-- On the host, too, the order of the class directory makes no difference. -/
theorem resolveUsbSerial_listedAs {h : Host} {ttys ttys' : List String} (hperm : ttys.Perm ttys')
    (hcs : Attached ((ttys.filter (isContractTty h)).map (candidate h))) (serial : String) :
    resolveUsbSerial (listedAs h ttys) serial =
      resolveUsbSerial (listedAs h ttys') serial := by
  have hscan : ∀ l, h.isDir "/sys/class/tty" = true → scanTtys (listedAs h l) =
      .ok ((l.filter (isContractTty h)).map (candidate h)) := by
    intro l hdir
    have hread : scanTtys (listedAs h l) = scanEntries (listedAs h l) (l.map .ok) := by
      simp [scanTtys, listedAs, hdir, bind_ok]
    rw [hread, scanEntries_ok]
    rfl
  cases hdir : h.isDir "/sys/class/tty" with
  | false =>
    have hempty : ∀ l, scanTtys (listedAs h l) = .ok [] := by
      intro l
      simp [scanTtys, listedAs, hdir]
    rw [resolveUsbSerial, resolveUsbSerial, hempty, hempty]
  | true =>
    rw [resolveUsbSerial, resolveUsbSerial, hscan _ hdir, hscan _ hdir, context_ok, context_ok,
      bind_ok, bind_ok]
    exact resolveSerialAmong_perm hcs ((hperm.filter _).map _) serial

/-- **Resolution by serial depends on what is attached, not on how it is listed**, and what it
returns belongs to the one board that publishes the serial.  So it does on a host whose scan
comes to these candidates, in whatever order the class directory is read. -/
theorem resolve_any_order (hcs : Attached cs) (hperm : cs.Perm cs') (serial : String) :
    resolveSerialAmong serial cs = resolveSerialAmong serial cs' ∧
      (∀ r, resolveSerialAmong serial cs = .ok r → FromOneBoard cs serial r) ∧
      ∀ (h : Host) (ttys ttys' : List String), ttys.Perm ttys' →
        (ttys.filter (isContractTty h)).map (candidate h) = cs →
          resolveUsbSerial (listedAs h ttys) serial =
            resolveUsbSerial (listedAs h ttys') serial := by
  refine ⟨resolveSerialAmong_perm hcs hperm serial, ?_, ?_⟩
  · intro r hr
    exact fromOneBoard_of_resolve hcs hr
  · intro h ttys ttys' httys hscan
    subst hscan
    exact resolveUsbSerial_listedAs httys hcs serial

/-- The two channels of one board, and the console of a second one. -/
def twoBoards : List Candidate :=
  [⟨"/dev/ttyACM1", some "3-6", some IFACE_LOG, some "a1"⟩,
    ⟨"/dev/ttyACM0", some "3-6", some IFACE_MGMT, some "a1"⟩,
    ⟨"/dev/ttyACM2", some "1-2", some IFACE_LOG, some "b2"⟩]

theorem twoBoards_attached : Attached twoBoards where
  onPort := by simp [twoBoards]
  mgmt := by
    intro port
    simp only [twoBoards, isChannel, List.filter_cons, List.filter_nil]
    by_cases hport : "3-6" = port <;> simp [hport, IFACE_MGMT, IFACE_LOG]
  log := by
    intro port
    simp only [twoBoards, isChannel, List.filter_cons, List.filter_nil]
    by_cases hport : "3-6" = port
    · subst hport
      decide +kernel
    · by_cases hother : "1-2" = port <;> simp [hport, hother]

/-- A host that scans them. -/
def twoBoardsHost : Host where
  isDir path := path = "/sys/class/tty"
  pathExists _ := true
  readDir _ := .ok []
  canonicalize path :=
    if path = "/sys/class/tty/ttyACM2/device" then some "/sys/devices/usb1/1-2/1-2:1.0"
    else some "/sys/devices/usb3/3-6/3-6:1.0"
  readToString path :=
    if path = "/sys/devices/usb1/1-2/serial" then some "b2\n"
    else if path = "/sys/devices/usb3/3-6/serial" then some "a1\n"
    else if path = "/sys/class/tty/ttyACM0/device/interface" then some "runtt-mgmt\n"
    else some "runtt-log\n"

theorem resolve_any_order_twoBoards :
    resolveSerialAmong "a1" twoBoards = resolveSerialAmong "a1" twoBoards.reverse ∧
      (∀ r, resolveSerialAmong "a1" twoBoards = .ok r → FromOneBoard twoBoards "a1" r) ∧
      resolveUsbSerial (listedAs twoBoardsHost ["ttyACM1", "ttyS0", "ttyACM0", "ttyACM2"]) "a1" =
        resolveUsbSerial (listedAs twoBoardsHost ["ttyACM2", "ttyACM0", "ttyS0", "ttyACM1"])
          "a1" := by
  obtain ⟨hsame, hboard, hhost⟩ :=
    resolve_any_order twoBoards_attached (List.reverse_perm twoBoards).symm "a1"
  exact ⟨hsame, hboard, hhost twoBoardsHost _ _
    (List.reverse_perm ["ttyACM2", "ttyACM0", "ttyS0", "ttyACM1"]) (by decide +kernel)⟩

end Attached

end Resolve
end Runtt
