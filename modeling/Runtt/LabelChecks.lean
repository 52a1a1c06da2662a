import Runtt.Labels
import Runtt.Provision
import Runtt.SameBoard

/-! # What `create` checks of a label

`create` parses the labels of a spec so that a malformed one fails early, and the proxy parses
and resolves them when it is started.  Which labels the proxy then refuses whatever the host
is, and so on their text alone, and which of them pass `create`.
-/
namespace Runtt

open Interaction Program

/-! ## What the proxy does with them -/

namespace Proxy

/-- Phase 2, up to the claim: the target. -/
def resolveTarget (h : Host) (target : String) : Except Error Resolved := do
  let parsed ← Target.parse target
  context s!"could not resolve target {target}" (Resolve.resolve h parsed)

/-- Phase 2, behind the claim: a log target of the spec overrides what the transport found. -/
def overrideLog (h : Host) (logTarget : Option String) (resolved : Resolved) :
    Except Error Resolved :=
  match logTarget with
  | none => .ok resolved
  | some lt => do
    let parsed ← Target.parse lt
    let r ← context s!"could not resolve log target {lt}" (Resolve.resolve h parsed)
    match r with
    | .serial mgmt _ => .ok (resolved.setLog mgmt)
    | .can _ _ _ =>
      .error [s!"log target {lt} is a CAN target; a log channel must be a serial " ++ "device"]

/-- The proxy refuses a target whatever the host is: on its text alone. -/
def RefusesTarget (label : String) : Prop := ∀ h, ∃ e, resolveTarget h label = .error e

/-- The proxy refuses a log target whatever the host is. -/
def RefusesLog (label : String) : Prop :=
  ∀ h resolved, ∃ e, overrideLog h (some label) resolved = .error e

end Proxy

/-- There are a node id, a reply id and a console id for it. -/
def NodeFits (nodeId : String) : Prop :=
  ∃ n, Resolve.nodeNumber nodeId = some n ∧ n + LOG_ID_OFFSET ≤ MAX_STD_ID

namespace Target

/-- A target that some host can have: the serial is not empty and has no white space at its
ends, and the node id leaves room for its three identifiers. -/
def Servable : Target → Prop
  | .usb (.portPath _) | .tty _ => True
  | .usb (.serial serial) => serial ≠ "" ∧ Text.trim serial = serial
  | .can _ nodeId => NodeFits nodeId

/-- On no bus. -/
def HasDevice : Target → Prop
  | .can _ _ => False
  | _ => True

end Target

namespace Resolve

theorem parseNodeId_ok_iff (nodeId : String) :
    (∃ n, parseNodeId nodeId = .ok n) ↔ NodeFits nodeId := by
  unfold parseNodeId NodeFits
  cases hnumber : nodeNumber nodeId with
  | none => simp
  | some n =>
    simp only [Option.some.injEq, exists_eq_left']
    by_cases hmax : MAX_STD_ID < n
    · have hfar : ¬ n + LOG_ID_OFFSET ≤ MAX_STD_ID := by omega
      simp [hmax, hfar]
    · by_cases hroom : MAX_STD_ID < n + LOG_ID_OFFSET
      · have hfar : ¬ n + LOG_ID_OFFSET ≤ MAX_STD_ID := by omega
        simp [hmax, hroom, hfar]
      · have hnear : n + LOG_ID_OFFSET ≤ MAX_STD_ID := by omega
        simp [hmax, hroom, hnear]

/-- A host with a board on a port, and every network interface but no udev tree. -/
def portHost (port : String) : Host where
  isDir path := path ≠ "/dev/runtt"
  pathExists _ := true
  readDir _ := .ok [.ok "ttyACM0"]
  canonicalize _ := some ("/" ++ port ++ ":1.0")
  readToString _ := some "runtt-mgmt"

/-- A scan only finds serials as `tty_serial` reads them. -/
theorem exists_tty_of_scan {h : Host} {cs : List Candidate} (hscan : scanTtys h = .ok cs)
    {c : Candidate} (hc : c ∈ cs) : ∃ tty, c = candidate h tty := by
  have hentries : ∀ (entries : List (Except Error String)) (cs : List Candidate),
      scanEntries h entries = .ok cs → ∀ c ∈ cs, ∃ tty, c = candidate h tty := by
    intro entries
    induction entries with
    | nil =>
      intro cs hcs c hc
      cases hcs
      cases hc
    | cons entry rest ih =>
      intro cs hcs c hc
      cases entry with
      | error e => cases hcs
      | ok tty =>
        rw [scanEntries] at hcs
        split at hcs
        · cases hrest : scanEntries h rest with
          | error e =>
            rw [hrest] at hcs
            cases hcs
          | ok found =>
            rw [hrest] at hcs
            cases hcs
            rcases List.mem_cons.mp hc with rfl | hc
            · exact ⟨tty, rfl⟩
            · exact ih found hrest c hc
        · exact ih cs hcs c hc
  unfold scanTtys at hscan
  split at hscan
  · cases hscan
    cases hc
  · cases hdir : h.readDir "/sys/class/tty" with
    | error e =>
      rw [hdir] at hscan
      cases hscan
    | ok entries =>
      rw [hdir] at hscan
      exact hentries entries cs hscan c hc

/-- A port path is made of digits, hyphens and dots. -/
theorem chars_of_isPortPath {s : String} (h : isPortPath s = true) :
    ∀ c ∈ s.toList, c.isDigit = true ∨ c = '-' ∨ c = '.' ∨ c = '\n' := by
  have hmatch : ∀ (cs : List Char) (state : Provision.PathState),
      Provision.matchPath Provision.asciiTables state cs = true →
        ∀ c ∈ cs, c.isDigit = true ∨ c = '-' ∨ c = '.' ∨ c = '\n' := by
    have hdecimal (c : Char) : Provision.isDecimal Provision.asciiTables c = c.isDigit := by
      simp [Provision.isDecimal, Provision.asciiTables]
    intro cs
    induction cs with
    | nil =>
      intro state _ c hc
      cases hc
    | cons d ds ih =>
      intro state hstate
      have hhead : (d.isDigit = true ∨ d = '-' ∨ d = '.' ∨ d = '\n') ∧
          (ds = [] ∨ ∃ state', Provision.matchPath Provision.asciiTables state' ds = true) := by
        cases state with
        | bus =>
          rw [Provision.matchPath, hdecimal, Bool.and_eq_true] at hstate
          exact ⟨.inl hstate.1, .inr ⟨_, hstate.2⟩⟩
        | busMore =>
          rw [Provision.matchPath, hdecimal] at hstate
          split at hstate
          · exact ⟨.inl ‹_›, .inr ⟨_, hstate⟩⟩
          · rw [Bool.and_eq_true, beq_iff_eq] at hstate
            exact ⟨.inr (.inl hstate.1), .inr ⟨_, hstate.2⟩⟩
        | port =>
          rw [Provision.matchPath, hdecimal, Bool.and_eq_true] at hstate
          exact ⟨.inl hstate.1, .inr ⟨_, hstate.2⟩⟩
        | portMore =>
          rw [Provision.matchPath, hdecimal] at hstate
          split at hstate
          · exact ⟨.inl ‹_›, .inr ⟨_, hstate⟩⟩
          · rw [Bool.or_eq_true, Bool.and_eq_true, Bool.and_eq_true, beq_iff_eq, beq_iff_eq,
              List.isEmpty_iff] at hstate
            rcases hstate with ⟨hdot, hport⟩ | ⟨hnewline, hend⟩
            · exact ⟨.inr (.inr (.inl hdot)), .inr ⟨_, hport⟩⟩
            · exact ⟨.inr (.inr (.inr hnewline)), .inl hend⟩
      intro c hc
      rcases List.mem_cons.mp hc with rfl | hc
      · exact hhead.1
      · rcases hhead.2 with rfl | ⟨state', hstate'⟩
        · cases hc
        · exact ih state' hstate' c hc
  exact hmatch s.toList .bus (Provision.matchPath_of_isPortPath h)

theorem portHost_ttyPortPath {port : String} (h : isPortPath port = true) :
    ttyPortPath (portHost port) "ttyACM0" = some port := by
  have hchars := chars_of_isPortPath h
  have hslash : '/' ∉ port.toList ++ ":1.0".toList := by
    rw [List.mem_append]
    rintro (hmem | hmem)
    · have hc := hchars '/' hmem
      revert hc
      decide
    · revert hmem
      decide
  have hcolon : ∀ c ∈ port.toList, decide (c ≠ ':') = true := by
    intro c hc
    rw [decide_eq_true_iff]
    rintro rfl
    have hc' := hchars ':' hc
    revert hc'
    decide
  have hne : port ≠ "" := by
    rintro rfl
    cases h
  have hname : Text.fileName ("/" ++ port ++ ":1.0") = some (port ++ ":1.0") := by
    have hcomponents :
        Text.components ("/" ++ port ++ ":1.0") = [port.toList ++ ":1.0".toList] := by
      have hlist : ("/" ++ port ++ ":1.0").toList = '/' :: (port.toList ++ ":1.0".toList) := by
        simp
      rw [Text.components, hlist, List.splitOn_cons_eq_if_modifyHead, if_pos (by decide),
        List.splitOn_eq_singleton hslash]
      simp
    unfold Text.fileName
    rw [hcomponents]
    have hdots : port.toList ++ ":1.0".toList ≠ ['.', '.'] := by
      intro heq
      have hmem : ':' ∈ port.toList ++ ":1.0".toList :=
        List.mem_append_right _ (by decide)
      rw [heq] at hmem
      revert hmem
      decide
    simp only [List.getLast?_singleton, if_neg hdots]
    rw [String.ofList_append, String.ofList_toList, String.ofList_toList]
  have htake : (port ++ ":1.0").toList.takeWhile (· ≠ ':') = port.toList := by
    rw [String.toList_append, List.takeWhile_append_of_pos hcolon]
    simp
  unfold ttyPortPath
  simp only [portHost, Option.bind_eq_bind, Option.bind_some, hname, htake, String.ofList_toList,
    if_neg hne]

/-- One board with a management interface serves its serial. -/
theorem resolveSerialAmong_singleton {c : Candidate} {serial : String}
    (hserial : c.serial = some serial) (hmgmt : c.interface = some IFACE_MGMT) :
    resolveSerialAmong serial [c] = .ok (.serial c.dev (channel IFACE_LOG [c])) := by
  have hfilter : ([c].filter fun c => c.serial == some serial) = [c] := by
    simp [hserial]
  have hone : ∀ d ∈ [c], d.serial = some serial → d.portPath = c.portPath := by
    intro d hd _
    rw [List.mem_singleton.mp hd]
  rw [resolveSerialAmong_of_one_port (List.mem_singleton_self c) hserial hone, hfilter]
  exact pick_of_channel (channel_eq_some (List.mem_singleton_self c) hmgmt fun d hd _ => by
    rw [List.mem_singleton.mp hd])

/-- And its port. -/
theorem resolvePortAmong_singleton {c : Candidate} {port : String}
    (hport : c.portPath = some port) (hmgmt : c.interface = some IFACE_MGMT) :
    resolvePortAmong port [c] = .ok (.serial c.dev (channel IFACE_LOG [c])) := by
  have hfilter : ([c].filter fun c => c.portPath == some port) = [c] := by
    simp [hport]
  unfold resolvePortAmong
  rw [hfilter]
  simp only [reduceCtorEq, if_false]
  exact pick_of_channel (channel_eq_some (List.mem_singleton_self c) hmgmt fun d hd _ => by
    rw [List.mem_singleton.mp hd])

/-- What some host can have, a host has. -/
theorem resolve_of_servable {label : String} {target : Target}
    (hparse : Target.parse label = .ok target) (h : target.Servable) :
    ∃ host r, resolve host target = .ok r ∧
      (target.HasDevice → ∃ mgmt log, r = .serial mgmt log) := by
  cases target with
  | tty device => exact ⟨plainHost, .serial (ttyPath device) none, rfl, fun _ => ⟨_, _, rfl⟩⟩
  | can iface nodeId =>
    obtain ⟨n, hn⟩ := (parseNodeId_ok_iff nodeId).mpr h
    refine ⟨{ plainHost with isDir := fun _ => true }, .can iface n none, ?_, False.elim⟩
    rw [resolve, hn]
    rfl
  | usb selector =>
    cases selector with
    | portPath port =>
      have hport : isPortPath port = true := by
        generalize htarget : Target.usb (.portPath port) = target at hparse
        cases Target.spells_of_parse hparse with
        | usb rest =>
          unfold UsbSelector.parse at htarget
          split at htarget
          · cases htarget
            assumption
          · cases htarget
        | tty device => cases htarget
        | can iface nodeId _ => cases htarget
      have hfound := resolvePortAmong_singleton (c := candidate (portHost port) "ttyACM0")
        (portHost_ttyPortPath hport) rfl
      exact ⟨portHost port, _, hfound, fun _ => ⟨_, _, rfl⟩⟩
    | serial serial =>
      obtain ⟨hne, htrim⟩ := h
      have hserial : ttySerial (Provision.oneBoard serial) "ttyACM0" = some serial := by
        refine (Provision.ttySerial_eq_some_iff hne).mpr ⟨serial ++ "\n", rfl, ?_⟩
        rw [Provision.trim_newline, htrim]
      have hfound := resolveSerialAmong_singleton
        (c := candidate (Provision.oneBoard serial) "ttyACM0") hserial rfl
      exact ⟨Provision.oneBoard serial, _, hfound, fun _ => ⟨_, _, rfl⟩⟩

/-- What a host has, some host can have. -/
theorem servable_of_resolve {host : Host} {target : Target} {r : Resolved}
    (h : resolve host target = .ok r) : target.Servable := by
  cases target with
  | tty device => trivial
  | can iface nodeId =>
    apply (parseNodeId_ok_iff nodeId).mp
    rw [resolve] at h
    cases hnode : parseNodeId nodeId with
    | error e =>
      rw [hnode] at h
      cases h
    | ok n => exact ⟨n, rfl⟩
  | usb selector =>
    cases selector with
    | portPath port => trivial
    | serial serial =>
      rw [resolve, resolveUsbSerial] at h
      cases hscan : scanTtys host with
      | error e =>
        rw [hscan] at h
        cases h
      | ok cs =>
        rw [hscan] at h
        obtain ⟨⟨c, hc, hserial⟩, -⟩ := resolveSerialAmong_eq_ok h
        obtain ⟨tty, rfl⟩ := exists_tty_of_scan hscan hc
        refine ⟨?_, Provision.trim_of_ttySerial hserial⟩
        have hread : ttySerial host tty = some serial := hserial
        rw [Provision.ttySerial_eq, Option.filter_eq_some_iff] at hread
        simpa using hread.2

end Resolve

/-! ## What passes `create` -/

theorem SysM.yields_context_ok {α : Type} {msg : String} {p : SysM α} {a : α}
    {t : List (Exchange Sys.Reply)} (h : Yields (SysM.context msg p) t (.ok a)) :
    Yields p t (.ok a) := by
  unfold Yields SysM.context rescue at h
  rw [ExceptT.run_mk, runs_bind_iff] at h
  obtain ⟨r, t₁, t₂, rfl, h₁, h₂⟩ := h
  cases r with
  | error f => cases (runs_done_iff.mp h₂).2
  | ok b =>
    obtain ⟨rfl, hb⟩ := runs_done_iff.mp h₂
    cases hb
    rwa [List.append_nil]

theorem SysM.yields_fromExcept_ok {α : Type} {x : Except Error α} {a : α}
    {t : List (Exchange Sys.Reply)} :
    Yields (SysM.fromExcept x) t (.ok a) ↔ t = [] ∧ x = .ok a := by
  cases x with
  | ok b =>
    refine yields_pure.trans (and_congr_right fun _ => ?_)
    exact eq_comm
  | error e =>
    refine yields_throw.trans (and_congr_right fun _ => ?_)
    exact eq_comm

theorem readSpec_ok {bundle : String} {spec : Spec} {t : List (Exchange Sys.Reply)}
    (h : Yields (readSpec bundle) t (.ok spec)) :
    t = [⟨.readConfig (Text.join bundle "config.json"), ConfigRead.spec spec⟩] := by
  replace h := yields_ask_bind.mp h
  obtain ⟨r, t', rfl, h⟩ := h
  cases r with
  | unreadable e => cases (yields_throw.mp h).2
  | malformed e => cases (yields_throw.mp h).2
  | spec found =>
    obtain ⟨rfl, hfound⟩ := yields_pure.mp h
    cases hfound
    rfl

/-- A `create` that succeeds has parsed both labels of the spec it read first. -/
theorem create_parses {id bundle : String} {pidFile : Option String} {spec : Spec}
    {t : List (Exchange Sys.Reply)}
    (h : Yields (create id bundle pidFile)
      (⟨.readConfig (Text.join bundle "config.json"), ConfigRead.spec spec⟩ :: t) (.ok ())) :
    (∃ label target, spec.annotation SPEC_TARGET = some label ∧
        Target.parse label = .ok target) ∧
      ∀ label, spec.annotation SPEC_LOG_TARGET = some label →
        ∃ target, Target.parse label = .ok target := by
  obtain ⟨_, t₁, t₂, ht, hvalid, h⟩ := yields_bind_ok.mp h
  obtain ⟨rfl, -⟩ := SysM.yields_fromExcept_ok.mp hvalid
  obtain ⟨args, t₃, t₄, rfl, hargs, -⟩ := yields_bind_ok.mp h
  obtain ⟨found, t₅, t₆, rfl, hread, hargs⟩ := yields_bind_ok.mp hargs
  rw [readSpec_ok hread] at ht
  cases ht
  cases hlabel : spec.annotation SPEC_TARGET with
  | none =>
    rw [hlabel] at hargs
    cases (yields_throw.mp hargs).2
  | some label =>
    rw [hlabel] at hargs
    obtain ⟨target, _, _, -, hparse, hargs⟩ := yields_bind_ok.mp hargs
    obtain ⟨firmware, _, _, -, -, hargs⟩ := yields_bind_ok.mp hargs
    obtain ⟨_, _, _, -, hlog, -⟩ := yields_bind_ok.mp hargs
    refine ⟨⟨label, target, rfl, (SysM.yields_fromExcept_ok.mp hparse).2⟩, fun lt hlt => ?_⟩
    rw [hlt] at hlog
    obtain ⟨logTarget, _, _, -, hparse, -⟩ := yields_bind_ok.mp (SysM.yields_context_ok hlog)
    exact ⟨logTarget, (SysM.yields_fromExcept_ok.mp hparse).2⟩

namespace Proxy

/-- The proxy refuses a parsed target on its text alone unless some host can have it. -/
theorem refusesTarget_iff {label : String} {target : Target}
    (hparse : Target.parse label = .ok target) :
    ¬ RefusesTarget label ↔ target.Servable := by
  constructor
  · intro haccepts
    rw [RefusesTarget, not_forall] at haccepts
    obtain ⟨h, hnone⟩ := haccepts
    cases hr : Resolve.resolve h target with
    | ok r => exact Resolve.servable_of_resolve hr
    | error e =>
      refine absurd ⟨s!"could not resolve target {label}" :: e, ?_⟩ hnone
      rw [resolveTarget, hparse, bind_ok, hr, context_error]
  · intro hservable hrefuses
    obtain ⟨h, r, hr, -⟩ := Resolve.resolve_of_servable hparse hservable
    obtain ⟨e, he⟩ := hrefuses h
    rw [resolveTarget, hparse, bind_ok, hr, context_ok] at he
    cases he

/-- A log target must also have a device of its own. -/
theorem refusesLog_iff {label : String} {target : Target}
    (hparse : Target.parse label = .ok target) :
    ¬ RefusesLog label ↔ target.Servable ∧ target.HasDevice := by
  constructor
  · intro haccepts
    simp only [RefusesLog, not_forall] at haccepts
    obtain ⟨h, resolved, hnone⟩ := haccepts
    cases hr : Resolve.resolve h target with
    | error e =>
      refine absurd ⟨s!"could not resolve log target {label}" :: e, ?_⟩ hnone
      rw [overrideLog, hparse, bind_ok, hr, context_error]
      rfl
    | ok r =>
      refine ⟨Resolve.servable_of_resolve hr, ?_⟩
      cases target with
      | usb selector => trivial
      | tty device => trivial
      | can iface nodeId =>
        obtain ⟨n, -, rfl⟩ := Resolve.resolve_can hr
        refine absurd ⟨[s!"log target {label} is a CAN target; a log channel must be a serial " ++
          "device"], ?_⟩ hnone
        rw [overrideLog, hparse, bind_ok, hr, context_ok]
        rfl
  · rintro ⟨hservable, hdevice⟩ hrefuses
    obtain ⟨h, r, hr, hserial⟩ := Resolve.resolve_of_servable hparse hservable
    obtain ⟨mgmt, log, rfl⟩ := hserial hdevice
    obtain ⟨e, he⟩ := hrefuses h (.serial mgmt none)
    rw [overrideLog, hparse, bind_ok, hr, context_ok] at he
    cases he

end Proxy

/-- **What a `create` that succeeds says about the labels**: no more than that both have a
transport and its shape.  The proxy refuses none of them on the text alone exactly when its
serial or node id is one that a host can have, and the log target is on no bus. -/
theorem create_labels_iff {id bundle : String} {pidFile : Option String} {spec : Spec}
    {t : List (Exchange Sys.Reply)}
    (h : Yields (create id bundle pidFile)
      (⟨.readConfig (Text.join bundle "config.json"), ConfigRead.spec spec⟩ :: t) (.ok ())) :
    ((∀ label, spec.annotation SPEC_TARGET = some label → ¬ Proxy.RefusesTarget label) ∧
        ∀ label, spec.annotation SPEC_LOG_TARGET = some label → ¬ Proxy.RefusesLog label) ↔
      (∀ label target, spec.annotation SPEC_TARGET = some label →
          Target.parse label = .ok target → target.Servable) ∧
        ∀ label target, spec.annotation SPEC_LOG_TARGET = some label →
          Target.parse label = .ok target → target.Servable ∧ target.HasDevice := by
  obtain ⟨⟨label, target, hlabel, hparse⟩, hlog⟩ := create_parses h
  refine and_congr ?_ ?_
  · constructor
    · intro haccepts label target hlabel hparse
      exact (Proxy.refusesTarget_iff hparse).mp (haccepts label hlabel)
    · intro hservable label' hlabel'
      cases hlabel.symm.trans hlabel'
      exact (Proxy.refusesTarget_iff hparse).mpr (hservable label target hlabel hparse)
  · constructor
    · intro haccepts lt target hlt hparse
      exact (Proxy.refusesLog_iff hparse).mp (haccepts lt hlt)
    · intro hservable lt hlt
      obtain ⟨target, hparse⟩ := hlog lt hlt
      exact (Proxy.refusesLog_iff hparse).mpr (hservable lt target hlt hparse)

/-- A system where every step of a `create` succeeds. -/
def willing (spec : Spec) : (q : Sys) → Unit → q.Reply × Unit
  | .readConfig _, w => (.spec spec, w)
  | .pathExists _, w => (true, w)
  | .currentExe, w => (.ok "/usr/bin/runtt", w)
  | .claim _, w => (.claimed, w)
  | .spawn _ _, w => (.ok 7, w)
  | .writePidFile _ _, w => (.ok (), w)
  | .readState _, w => (.error "no such file", w)
  | .writeState _, w => (.ok (), w)
  | .removeState _, w => (.removed, w)
  | .kill _ _, w => (.ok (), w)
  | .probe _, w => (true, w)
  | .now, w => (0, w)
  | .sleep _, w => ((), w)
  | .print _, w => ((), w)

/-- The spec of a service with these labels. -/
def labelled (target : String) (log : Option String) : Spec :=
  ⟨some ((SPEC_TARGET, target) :: (log.map fun lt => (SPEC_LOG_TARGET, lt)).toList),
    some ["app.signed.bin"], some "rootfs"⟩

/-- What follows the first exchange of `create "blinky"`. -/
def willingRest (spec : Spec) : List (Exchange Sys.Reply) :=
  (trace (willing spec) (create "blinky" "/bundle" none).run ()).tail

theorem willing_yields {spec : Spec}
    (hok : (exec (willing spec) (create "blinky" "/bundle" none).run ()).1 = .ok ()) :
    Yields (create "blinky" "/bundle" none)
      (⟨.readConfig (Text.join "/bundle" "config.json"), ConfigRead.spec spec⟩ ::
        willingRest spec) (.ok ()) := exec_yields hok

/-- A spec with two ttys. -/
def ttySpec : Spec := labelled "tty:ttyACM0" (some "tty:ttyACM1")

theorem create_labels_iff_tty :
    ((∀ label, ttySpec.annotation SPEC_TARGET = some label → ¬ Proxy.RefusesTarget label) ∧
        ∀ label, ttySpec.annotation SPEC_LOG_TARGET = some label → ¬ Proxy.RefusesLog label) ↔
      (∀ label target, ttySpec.annotation SPEC_TARGET = some label →
          Target.parse label = .ok target → target.Servable) ∧
        ∀ label target, ttySpec.annotation SPEC_LOG_TARGET = some label →
          Target.parse label = .ok target → target.Servable ∧ target.HasDevice :=
  create_labels_iff (willing_yields (by decide +kernel))

/-- `create` succeeds with a node id that is no number, and with a log target on a bus. -/
theorem create_accepts_mislabelled :
    ¬ ∀ (id bundle : String) (pidFile : Option String) (spec : Spec)
        (t : List (Exchange Sys.Reply)),
        Yields (create id bundle pidFile)
          (⟨.readConfig (Text.join bundle "config.json"), ConfigRead.spec spec⟩ :: t) (.ok ()) →
        (∀ label, spec.annotation SPEC_TARGET = some label → ¬ Proxy.RefusesTarget label) ∧
          ∀ label, spec.annotation SPEC_LOG_TARGET = some label → ¬ Proxy.RefusesLog label := by
  intro hall
  have hrun := hall "blinky" "/bundle" none (labelled "can:vcan0/zz" (some "can:vcan0/0x10")) _
    (willing_yields (by decide +kernel))
  have htarget := hrun.1 "can:vcan0/zz" (by decide +kernel)
  rw [Proxy.refusesTarget_iff (show Target.parse "can:vcan0/zz" = .ok (.can "vcan0" "zz") by
    decide +kernel)] at htarget
  obtain ⟨n, hnumber, -⟩ := htarget
  have hnone : Resolve.nodeNumber "zz" = none := by decide +kernel
  rw [hnone] at hnumber
  cases hnumber

end Runtt
