import Runtt.SameBoard
import Runtt.SystemRuns

/-! # One board, one claim

The label lock that `create` takes cannot tell two names of one board from each other.  The
proxy resolves its label once it is started and then claims the board under its lock key;
two labels of one board have one key, so one of two proxies gets it and the other exits.

The host stays as it is here: what is asked is whether the names agree, not what happens
when a board is moved.
-/
namespace Runtt

open Interaction Program

namespace Resolve

/-- The label resolves, and this is its lock key. -/
def Names (h : Host) (label key : String) : Prop :=
  ∃ r : Resolved, (Target.parse label >>= resolve h) = .ok r ∧ r.lockKey h = key

/-- A label has one key. -/
theorem Names.unique {h : Host} {label key key' : String} (hk : Names h label key)
    (hk' : Names h label key') : key = key' := by
  obtain ⟨r, hr, rfl⟩ := hk
  obtain ⟨r', hr', rfl⟩ := hk'
  rw [hr] at hr'
  cases hr'
  rfl

/-- Two labels of one board. -/
inductive OneBoard (h : Host) : String → String → Prop where
  | usb {ttys : List String} {port serial : String} (hb : SoleBoard h ttys port serial)
      (hport : isPortPath port = true) (hserial : isPortPath serial = false) :
      OneBoard h ("usb:" ++ port) ("usb:" ++ serial)
  | can {label label' iface id id' : String} (hl : Target.parse label = .ok (.can iface id))
      (hl' : Target.parse label' = .ok (.can iface id')) (hsame : nodeNumber id = nodeNumber id') :
      OneBoard h label label'
  | tty {label label' device device' dev : String} (hl : Target.parse label = .ok (.tty device))
      (hl' : Target.parse label' = .ok (.tty device'))
      (hdev : h.canonicalize (ttyPath device) = some dev)
      (hdev' : h.canonicalize (ttyPath device') = some dev) : OneBoard h label label'
  | symm {label label' : String} (hb : OneBoard h label label') : OneBoard h label' label

theorem bind_of_parse {h : Host} {label : String} {t : Target} (hl : Target.parse label = .ok t) :
    (Target.parse label >>= resolve h) = resolve h t := by
  rw [hl]
  rfl

/-- **Labels of one board have one key.** -/
theorem OneBoard.key_eq {h : Host} {label label' key key' : String} (hb : OneBoard h label label')
    (hk : Names h label key) (hk' : Names h label' key') : key = key' := by
  induction hb generalizing key key' with
  | usb hb hport hserial =>
    obtain ⟨r, hr, rfl⟩ := hk
    exact Names.unique ⟨r, (resolve_usb_labels hb hport hserial r).mp hr, rfl⟩ hk'
  | can hl hl' hsame =>
    obtain ⟨r, hr, rfl⟩ := hk
    obtain ⟨r', hr', rfl⟩ := hk'
    rw [bind_of_parse hl] at hr
    rw [bind_of_parse hl'] at hr'
    exact (lockKey_can_iff hr hr').mpr hsame
  | tty hl hl' hdev hdev' =>
    obtain ⟨r, hr, rfl⟩ := hk
    obtain ⟨r', hr', rfl⟩ := hk'
    rw [bind_of_parse hl] at hr
    rw [bind_of_parse hl'] at hr'
    exact lockKey_tty hr hr' hdev hdev'
  | symm hb ih => exact (ih hk' hk).symm

/-- The lock of a label is never that of a device. -/
theorem lockName_ne_deviceLock (label key : String) : lockName label ≠ deviceLock key := by
  intro heq
  have hlist := congrArg String.toList heq
  simp [lockName, deviceLock, String.toList_append] at hlist

end Resolve

/-- The proxy is past `acquire_resolved`: it holds the lock of a device. -/
def Proxy.HoldsDevice (p : Proxy) : Prop := ∃ key, deviceLock key ∈ p.locks

namespace System
variable {sys sys' : System} {root : String} {m : SystemMove} {r r' : Resident} {h : Host}
  {guard : System → SystemMove → Prop} {p : Proxy}

/-- Labels are resolved on this host. -/
def OnHost (h : Host) (_ : System) (m : SystemMove) : Prop :=
  ∀ pid host, m = .resolve pid host → host = h

/-- A proxy gets one lock of its own accord, that of the device, and only if it is free. -/
theorem Becomes.locks (hb : sys.Becomes m r p) :
    p.locks = r.proxy.locks ∨
      ∃ key, m = .claim r.pid ∧ r.proxy.stage = .claiming key ∧
        sys.locked (deviceLock key) = false ∧ p.locks = deviceLock key :: r.proxy.locks := by
  cases hb with
  | same hquiet => exact .inl rfl
  | @delivered i inv sig htells =>
    obtain ⟨stage, received, heq⟩ := r.proxy.deliver_only sig
    exact .inl (by rw [heq])
  | moved hmoved =>
    cases hmoved with
    | advance =>
      obtain ⟨stage, received, heq⟩ := r.proxy.advance_only
      exact .inl (by rw [heq])
    | resolve hp =>
      obtain ⟨-, ⟨key, rfl⟩ | rfl⟩ := resolved_stage hp
      · exact .inl rfl
      · exact .inl rfl
    | claim hp =>
      obtain ⟨key, hstage, ⟨-, rfl⟩ | ⟨hfree, rfl⟩⟩ := claimed_stage hp
      · exact .inl rfl
      · exact .inr ⟨key, rfl, hstage, hfree, rfl⟩
    | finish hp =>
      obtain ⟨-, rfl⟩ := finished_stage hp
      exact .inl rfl

/-- The locks of a proxy that is spawned now hold no device. -/
theorem not_holds_of_spawns (hsys : Reaches root guard sys) {i : Nat} {inv : Invocation}
    {exe : String} {args : SpawnArgs} {pid : Nat}
    (htells : sys.Tells m i inv ⟨.spawn exe args, Except.ok pid⟩) : ¬ args.proxy.HoldsDevice := by
  rintro ⟨key, hkey⟩
  obtain ⟨-, -, -, hlock, -⟩ := (htells.allowed hsys).1
  exact Resolve.lockName_ne_deviceLock _ _ (hlock.symm.trans (List.mem_singleton.mp hkey).symm)

theorem locked_of_mem {name : String} (hr : r ∈ sys.proxies) (hname : name ∈ r.proxy.locks) :
    sys.locked name = true := by
  rw [locked, Bool.or_eq_true]
  exact .inl (List.any_eq_true.mpr ⟨r, hr, List.contains_iff_mem.mpr hname⟩)

/-- No device is locked by two proxies. -/
theorem device_exclusive (h : Reaches root guard sys) {key : String} (hr : r ∈ sys.proxies)
    (hr' : r' ∈ sys.proxies) (hkey : deviceLock key ∈ r.proxy.locks)
    (hkey' : deviceLock key ∈ r'.proxy.locks) : r.pid = r'.pid := by
  refine h.invariant (I := fun sys => ∀ r ∈ sys.proxies, ∀ r' ∈ sys.proxies, ∀ key,
    deviceLock key ∈ r.proxy.locks → deviceLock key ∈ r'.proxy.locks → r.pid = r'.pid)
    (fun r hr => by cases hr) ?_ r hr r' hr' key hkey hkey'
  intro sys sys' m hsys ih _ hstep r₁ hr₁ r₂ hr₂ key hkey₁ hkey₂
  have hold : ∀ {r' : Resident}, r' ∈ sys'.proxies → deviceLock key ∈ r'.proxy.locks →
      ∃ r ∈ sys.proxies, r'.pid = r.pid ∧ (deviceLock key ∈ r.proxy.locks ∨
        m = .claim r.pid ∧ sys.locked (deviceLock key) = false) := by
    intro r' hr' hkey'
    rcases step_proxy (distinct hsys) hstep hr' with
      ⟨r, hr, hpid, -, hbecomes⟩ | ⟨i, inv, exe, args, htells, heq⟩
    · refine ⟨r, hr, hpid, ?_⟩
      rcases hbecomes.locks with hlocks | ⟨key₀, hm, -, hfree, hlocks⟩
      · exact .inl (hlocks ▸ hkey')
      · rw [hlocks] at hkey'
        rcases List.mem_cons.mp hkey' with heq | hkey'
        · exact .inr ⟨hm, heq ▸ hfree⟩
        · exact .inl hkey'
    · rw [heq] at hkey'
      exact absurd ⟨key, hkey'⟩ (not_holds_of_spawns hsys htells)
  obtain ⟨s₁, hs₁, hpid₁, hkey₁ | ⟨hm₁, hfree₁⟩⟩ := hold hr₁ hkey₁
  · obtain ⟨s₂, hs₂, hpid₂, hkey₂ | ⟨hm₂, hfree₂⟩⟩ := hold hr₂ hkey₂
    · rw [hpid₁, hpid₂]
      exact ih s₁ hs₁ s₂ hs₂ key hkey₁ hkey₂
    · rw [locked_of_mem hs₁ hkey₁] at hfree₂
      cases hfree₂
  · obtain ⟨s₂, hs₂, hpid₂, hkey₂ | ⟨hm₂, hfree₂⟩⟩ := hold hr₂ hkey₂
    · rw [locked_of_mem hs₂ hkey₂] at hfree₁
      cases hfree₁
    · rw [hm₁] at hm₂
      rw [hpid₁, hpid₂]
      exact SystemMove.claim.inj hm₂

/-- A proxy that is about to claim a device has resolved its label. -/
theorem names_of_claiming (hsys : Reaches root (OnHost h) sys) : ∀ r ∈ sys.proxies, ∀ key,
    r.proxy.stage = .claiming key → Resolve.Names h r.proxy.target key := by
  refine proxies_invariant (P := fun p => ∀ key, p.stage = .claiming key →
    Resolve.Names h p.target key) hsys (fun _ _ key hstage => by cases hstage) ?_
  intro sys m r p _ hhost _ ih hbecomes key hstage
  rw [hbecomes.continues.target]
  cases hbecomes with
  | same hquiet => exact ih key hstage
  | delivered htells => exact ih key (Proxy.stage_of_deliver hstage rfl)
  | moved hmoved =>
    cases hmoved with
    | advance => exact ih key (Proxy.stage_of_advance hstage rfl (by simp))
    | @resolve host p hp =>
      obtain rfl := hhost r.pid host rfl
      unfold resolved at hp
      split at hp
      · split at hp
        · rename_i res hres
          cases hp
          exact ⟨res, hres, Stage.claiming.inj hstage⟩
        · cases hp
          cases hstage
      · cases hp
    | claim hp =>
      obtain ⟨key', hclaiming, ⟨-, rfl⟩ | ⟨-, rfl⟩⟩ := claimed_stage hp
      · cases hstage
      · cases hstage
    | finish hp =>
      obtain ⟨-, rfl⟩ := finished_stage hp
      cases hstage

/-- A proxy that holds a device resolved its label to it. -/
theorem names_of_holds (hsys : Reaches root (OnHost h) sys) : ∀ r ∈ sys.proxies, ∀ key,
    deviceLock key ∈ r.proxy.locks →
      ∃ key', Resolve.Names h r.proxy.target key' ∧ deviceLock key' = deviceLock key := by
  refine proxies_invariant (P := fun p => ∀ key, deviceLock key ∈ p.locks →
    ∃ key', Resolve.Names h p.target key' ∧ deviceLock key' = deviceLock key) hsys
    (fun hsys htells key hkey => absurd ⟨key, hkey⟩ (not_holds_of_spawns hsys htells)) ?_
  intro sys m r p hsys _ hr ih hbecomes key hkey
  rw [hbecomes.continues.target]
  rcases hbecomes.locks with hlocks | ⟨key₀, -, hstage, -, hlocks⟩
  · exact ih key (hlocks ▸ hkey)
  · rw [hlocks] at hkey
    rcases List.mem_cons.mp hkey with heq | hkey
    · exact ⟨key₀, names_of_claiming hsys r hr key₀ hstage, heq.symm⟩
    · exact ih key hkey

/-- A proxy that deploys holds its device. -/
theorem holds_of_deploying (hsys : Reaches root guard sys) (hr : r ∈ sys.proxies)
    (hstage : r.proxy.stage = .deploying) : r.proxy.HoldsDevice := by
  refine proxies_invariant (P := fun p => p.stage = .deploying → p.HoldsDevice) hsys
    (fun _ _ hstage => by cases hstage) ?_ r hr hstage
  intro sys m r p _ _ _ ih hbecomes hstage
  have hkept : r.proxy.stage = .deploying → p.HoldsDevice := fun hstage =>
    (ih hstage).imp fun key hkey => hbecomes.continues.locks hkey
  cases hbecomes with
  | same hquiet => exact hkept hstage
  | delivered htells => exact hkept (Proxy.stage_of_deliver hstage rfl)
  | moved hmoved =>
    cases hmoved with
    | advance => exact hkept (Proxy.stage_of_advance hstage rfl (by simp))
    | resolve hp =>
      obtain ⟨-, ⟨key, rfl⟩ | rfl⟩ := resolved_stage hp
      · cases hstage
      · cases hstage
    | claim hp =>
      obtain ⟨key, -, ⟨-, rfl⟩ | ⟨-, rfl⟩⟩ := claimed_stage hp
      · cases hstage
      · exact ⟨key, List.mem_cons_self⟩
    | finish hp =>
      obtain ⟨-, rfl⟩ := finished_stage hp
      cases hstage

/-- While a proxy holds a board, no other proxy of that board holds it. -/
theorem not_holds_of_holds (hsys : Reaches root (OnHost h) sys) (hr : r ∈ sys.proxies)
    (hr' : r' ∈ sys.proxies) (hne : r.pid ≠ r'.pid)
    (hb : Resolve.OneBoard h r.proxy.target r'.proxy.target) (hholds : r.proxy.HoldsDevice) :
    ¬ r'.proxy.HoldsDevice := by
  rintro ⟨key', hkey'⟩
  obtain ⟨key, hkey⟩ := hholds
  obtain ⟨k, hk, heq⟩ := names_of_holds hsys _ hr _ hkey
  obtain ⟨k', hk', heq'⟩ := names_of_holds hsys _ hr' _ hkey'
  obtain rfl := hb.key_eq hk hk'
  rw [← heq] at hkey
  rw [← heq'] at hkey'
  exact hne (device_exclusive hsys hr hr' hkey hkey')

/-- While a proxy holds a board, the claim of another proxy of that board fails. -/
theorem claim_fails_of_holds (hsys : Reaches root (OnHost h) sys) (hr : r ∈ sys.proxies)
    (hr' : r' ∈ sys.proxies) (hb : Resolve.OneBoard h r.proxy.target r'.proxy.target)
    (hholds : r.proxy.HoldsDevice) (hstep : sys.step root (.claim r'.pid) = some sys') :
    ⟨r'.pid, r'.creator, { r'.proxy with stage := .exiting 1 }⟩ ∈ sys'.proxies := by
  simp only [step] at hstep
  obtain ⟨r₁, hr₁, hpid, p, hp, rfl⟩ := onProxy_eq_some hstep
  obtain rfl := (distinct hsys).eq hr₁ hr' hpid
  obtain ⟨key', hstage, hcases⟩ := claimed_stage hp
  obtain ⟨key, hkey⟩ := hholds
  obtain ⟨k, hk, heq⟩ := names_of_holds hsys _ hr _ hkey
  obtain rfl := hb.key_eq hk (names_of_claiming hsys _ hr₁ _ hstage)
  rw [← heq] at hkey
  rcases hcases with ⟨-, rfl⟩ | ⟨hfree, -⟩
  · exact List.mem_map.mpr ⟨r₁, hr₁, if_pos rfl⟩
  · rw [locked_of_mem hr hkey] at hfree
    cases hfree

/-- **One board, one claim, whatever it is called**: the two `usb:` labels of a board give the
same channels, two `can:` labels on one interface give one key exactly if they are one number,
two paths to one device give one key; and while a proxy is past its claim, no other proxy of
the same board is, and its claim fails. -/
theorem one_board_one_claim (root : String) (h : Host) :
    (∀ ttys port serial, Resolve.SoleBoard h ttys port serial → isPortPath port = true →
      isPortPath serial = false → ∀ res,
        (Target.parse ("usb:" ++ port) >>= Resolve.resolve h) = .ok res ↔
          (Target.parse ("usb:" ++ serial) >>= Resolve.resolve h) = .ok res) ∧
    (∀ label label' iface id id' res res', Target.parse label = .ok (.can iface id) →
      Target.parse label' = .ok (.can iface id') →
      (Target.parse label >>= Resolve.resolve h) = .ok res →
      (Target.parse label' >>= Resolve.resolve h) = .ok res' →
        (res.lockKey h = res'.lockKey h ↔ Resolve.nodeNumber id = Resolve.nodeNumber id')) ∧
    (∀ label label' device device' dev res res', Target.parse label = .ok (.tty device) →
      Target.parse label' = .ok (.tty device') →
      (Target.parse label >>= Resolve.resolve h) = .ok res →
      (Target.parse label' >>= Resolve.resolve h) = .ok res' →
      h.canonicalize (Resolve.ttyPath device) = some dev →
      h.canonicalize (Resolve.ttyPath device') = some dev → res.lockKey h = res'.lockKey h) ∧
    ∀ sys, Reaches root (OnHost h) sys → ∀ r ∈ sys.proxies, ∀ r' ∈ sys.proxies, r.pid ≠ r'.pid →
      Resolve.OneBoard h r.proxy.target r'.proxy.target →
      (r.proxy.stage = .deploying ∨ r.proxy.HoldsDevice) →
        (r'.proxy.stage ≠ .deploying ∧ ¬ r'.proxy.HoldsDevice) ∧
          ∀ sys', sys.step root (.claim r'.pid) = some sys' →
            ⟨r'.pid, r'.creator, { r'.proxy with stage := .exiting 1 }⟩ ∈ sys'.proxies := by
  refine ⟨?_, ?_, ?_, ?_⟩
  · intro ttys port serial hb hport hserial res
    exact Resolve.resolve_usb_labels hb hport hserial res
  · intro label label' iface id id' res res' hl hl' hres hres'
    rw [Resolve.bind_of_parse hl] at hres
    rw [Resolve.bind_of_parse hl'] at hres'
    exact Resolve.lockKey_can_iff hres hres'
  · intro label label' device device' dev res res' hl hl' hres hres' hdev hdev'
    rw [Resolve.bind_of_parse hl] at hres
    rw [Resolve.bind_of_parse hl'] at hres'
    exact Resolve.lockKey_tty hres hres' hdev hdev'
  · intro sys hsys r hr r' hr' hne hb hpast
    have hholds : r.proxy.HoldsDevice := by
      rcases hpast with hstage | hholds
      · exact holds_of_deploying hsys hr hstage
      · exact hholds
    have hnot := not_holds_of_holds hsys hr hr' hne hb hholds
    exact ⟨⟨fun hstage => hnot (holds_of_deploying hsys hr' hstage), hnot⟩, fun sys' hstep =>
      claim_fails_of_holds hsys hr hr' hb hholds hstep⟩

/-! ## A board under two names -/

/-- A host with one board, on port 3-4 and with a serial, and its udev links. -/
def benchHost : Host where
  isDir p := p ∈ ["/sys/class/tty", "/dev/runtt", "/sys/class/net/vcan0"]
  pathExists p := p ∈ ["/dev/ttyACM0", "/dev/ttyACM1", "/dev/runtt/feather-mgmt"]
  readDir p :=
    if p = "/sys/class/tty" then .ok [.ok "ttyACM0", .ok "ttyACM1"]
    else .ok [.ok "feather-mgmt", .ok "feather-log"]
  canonicalize p :=
    [("/sys/class/tty/ttyACM0/device", "/sys/devices/usb3/3-4/3-4:1.0"),
      ("/sys/class/tty/ttyACM1/device", "/sys/devices/usb3/3-4/3-4:1.2"),
      ("/dev/runtt/feather-mgmt", "/dev/ttyACM0"), ("/dev/runtt/feather-log", "/dev/ttyACM1"),
      ("/dev/ttyACM0", "/dev/ttyACM0"), ("/dev/ttyACM1", "/dev/ttyACM1")].lookup p
  readToString p :=
    [("/sys/class/tty/ttyACM0/device/interface", "runtt-mgmt\n"),
      ("/sys/class/tty/ttyACM1/device/interface", "runtt-log\n"),
      ("/sys/devices/usb3/3-4/serial", "feather-01\n")].lookup p

/-- Either tty of the bench host, by its interface descriptor. -/
theorem benchHost_channel {iface tty : String}
    (h : Resolve.ChannelOf benchHost ["ttyACM0", "ttyACM1"] "3-4" iface tty) :
    iface = IFACE_MGMT ∧ tty = "ttyACM0" ∨ iface = IFACE_LOG ∧ tty = "ttyACM1" := by
  obtain ⟨hmem, -, hinterface⟩ := h
  rcases List.mem_cons.mp hmem with rfl | hmem
  · exact .inl ⟨Option.some.inj (hinterface.symm.trans (by decide)), rfl⟩
  · obtain rfl := List.mem_singleton.mp hmem
    exact .inr ⟨Option.some.inj (hinterface.symm.trans (by decide)), rfl⟩

theorem benchHost_tree : Resolve.TreeOf benchHost ["ttyACM0", "ttyACM1"] "3-4"
    ["feather-mgmt", "feather-log"] where
  read := rfl
  links := by
    intro name hname tty hfile _
    rcases List.mem_cons.mp hname with rfl | hname
    · obtain rfl := Option.some.inj (hfile.symm.trans
        (show _ = some "ttyACM0" by decide))
      exact ⟨by decide, .inl ⟨by decide, by decide, by decide, by decide⟩⟩
    · obtain rfl := List.mem_singleton.mp hname
      obtain rfl := Option.some.inj (hfile.symm.trans
        (show _ = some "ttyACM1" by decide))
      exact ⟨by decide, .inr ⟨by decide, by decide, by decide, by decide⟩⟩
  mgmt := by
    intro tty hchannel
    rcases benchHost_channel hchannel with ⟨-, rfl⟩ | ⟨hiface, -⟩
    · exact ⟨"feather-mgmt", by decide, by decide, by decide⟩
    · exact absurd hiface (by decide)
  log := by
    intro tty hchannel
    rcases benchHost_channel hchannel with ⟨hiface, -⟩ | ⟨-, rfl⟩
    · exact absurd hiface (by decide)
    · exact ⟨"feather-log", by decide, by decide, by decide⟩

theorem benchHost_soleBoard :
    Resolve.SoleBoard benchHost ["ttyACM0", "ttyACM1"] "3-4" "feather-01" where
  scan := by decide
  published := by decide
  only := by decide
  sameSerial := by decide
  oneChannel := by
    intro iface t t' _ ht ht'
    rcases benchHost_channel ht with ⟨rfl, rfl⟩ | ⟨rfl, rfl⟩
    · rcases benchHost_channel ht' with ⟨-, rfl⟩ | ⟨hiface, -⟩
      · rfl
      · exact absurd hiface (by decide)
    · rcases benchHost_channel ht' with ⟨hiface, -⟩ | ⟨-, rfl⟩
      · exact absurd hiface (by decide)
      · rfl
  tree := fun _ => ⟨_, benchHost_tree⟩

/-- Two containers are created for the board, by port and by serial, and started; the first
one claims it. -/
def claimedFirst : List SystemMove :=
  List.flatten
    [.invoke (.create "a" "/b" none) :: creates 0 (labelled "usb:3-4") 100,
      .invoke (.create "b" "/b" none) :: creates 1 (labelled "usb:feather-01") 200,
      List.replicate 4 (.advance 100), List.replicate 4 (.advance 200),
      [.invoke (.start "a"), .answer 2 .goes, .answer 2 .goes],
      [.invoke (.start "b"), .answer 3 .goes, .answer 3 .goes],
      [.advance 100, .advance 100, .advance 200, .advance 200],
      [.resolve 100 benchHost, .resolve 200 benchHost, .claim 100]]

theorem claimedFirst_onHost : ∀ m ∈ claimedFirst, ∀ sys, OnHost benchHost sys m := by
  intro m hm sys pid host heq
  subst heq
  have hresolves : pid = 100 ∧ host = benchHost ∨ pid = 200 ∧ host = benchHost := by
    simpa [claimedFirst, creates] using hm
  rcases hresolves with ⟨-, rfl⟩ | ⟨-, rfl⟩ <;> rfl

/-- What the run leads to: the first proxy deploys, the second can make its claim. -/
theorem claimedFirst_leads :
    (claimedFirst.foldlM (step "/run/runtt") initial).map (fun sys =>
        (sys.proxies.map fun r => (r.pid, r.proxy.target, r.proxy.stage),
          (sys.step "/run/runtt" (.claim 200)).isSome)) =
      some ([(200, "usb:feather-01", .claiming "/dev/ttyACM0"), (100, "usb:3-4", .deploying)],
        true) := by
  decide +kernel

theorem one_board_one_claim_example :
    (Target.parse "usb:feather-01" >>= Resolve.resolve benchHost) =
        .ok (.serial "/dev/ttyACM0" (some "/dev/ttyACM1")) ∧
      (Resolved.can "vcan0" 0x42 none).lockKey benchHost ≠
        (Resolved.can "vcan0" 0x43 none).lockKey benchHost ∧
      (Resolved.serial "/dev/ttyACM0" none).lockKey benchHost =
        (Resolved.serial "/dev/runtt/feather-mgmt" none).lockKey benchHost ∧
      ∃ sys, claimedFirst.foldlM (step "/run/runtt") initial = some sys ∧
        sys.proxies.map (fun r => (r.pid, r.proxy.target, r.proxy.stage)) =
          [(200, "usb:feather-01", .claiming "/dev/ttyACM0"), (100, "usb:3-4", .deploying)] ∧
        ∃ sys', sys.step "/run/runtt" (.claim 200) = some sys' ∧
          ∃ r ∈ sys'.proxies, r.pid = 200 ∧ r.proxy.stage = .exiting 1 := by
  obtain ⟨husb, hcan, htty, hclaim⟩ := one_board_one_claim "/run/runtt" benchHost
  refine ⟨?_, ?_, ?_, ?_⟩
  · exact (husb _ "3-4" "feather-01" benchHost_soleBoard (by decide) (by decide) _).mp (by decide)
  · rw [Ne, hcan "can:vcan0/0x42" "can:vcan0/67" "vcan0" "0x42" "67" _ _ (by decide) (by decide)
      (by decide) (by decide)]
    decide
  · exact htty "tty:ttyACM0" "tty:/dev/runtt/feather-mgmt" "ttyACM0" "/dev/runtt/feather-mgmt"
      "/dev/ttyACM0" _ _ (by decide) (by decide) (by decide) (by decide) (by decide) (by decide)
  · obtain ⟨sys, hrun, hleads⟩ := Option.map_eq_some_iff.mp claimedFirst_leads
    obtain ⟨hproxies, hclaims⟩ := Prod.mk.inj hleads
    obtain ⟨sys', hstep⟩ := Option.isSome_iff_exists.mp hclaims
    have hsys : Reaches "/run/runtt" (OnHost benchHost) sys :=
      .run_of_forall .refl claimedFirst_onHost hrun
    refine ⟨sys, hrun, hproxies, sys', hstep, ?_⟩
    obtain ⟨r, hr, heq⟩ := List.mem_map.mp (hproxies ▸ List.mem_cons_of_mem _ List.mem_cons_self)
    obtain ⟨r', hr', heq'⟩ := List.mem_map.mp (hproxies ▸ List.mem_cons_self)
    obtain ⟨hpid, htarget, hstage⟩ : r.pid = 100 ∧ r.proxy.target = "usb:3-4" ∧
        r.proxy.stage = .deploying := by
      simpa using heq
    obtain ⟨hpid', htarget', -⟩ : r'.pid = 200 ∧ r'.proxy.target = "usb:feather-01" ∧
        r'.proxy.stage = .claiming "/dev/ttyACM0" := by
      simpa using heq'
    have hboard : Resolve.OneBoard benchHost r.proxy.target r'.proxy.target := by
      rw [htarget, htarget']
      exact .usb benchHost_soleBoard (by decide) (by decide)
    have hne : r.pid ≠ r'.pid := by
      rw [hpid, hpid']
      decide
    have hfails := (hclaim sys hsys r hr r' hr' hne hboard (.inl hstage)).2
    rw [hpid'] at hfails
    exact ⟨_, hfails sys' hstep, rfl, rfl⟩

end System
end Runtt
