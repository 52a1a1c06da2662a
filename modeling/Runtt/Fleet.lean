import Mathlib.Logic.Function.Basic
import Runtt.Board
import Runtt.DeviceClaim

/-! # Containers and their boards

The verbs and the proxies of a host, and the boards that the proxies deploy to, each board
under the lock key that its label resolves to.  A proxy that gets its claim begins a deploy
and makes its calls one by one; between any two of them other verbs run, other proxies deploy
to other boards, boards are reset, and any process may be killed.

`Fleet.boards_in_turn` is the refinement: whatever is interleaved on the host, each board sees one
deploy at a time, as the claim of the device promises.  What `Board` proves of boards in turn
then holds on every host.
-/
namespace Runtt

open Interaction Program

/-- A host and its boards, by lock key. -/
structure Fleet where
  sys : System
  boards : String → Board

/-- What can happen. -/
inductive FleetMove where
  /-- Anything of the verbs, the processes and the proxies but a claim of a device. -/
  | system (m : SystemMove)
  /-- A proxy claims its device, and, if it gets it, begins its deploy: `fs::read` makes
  `firmware` of its file. -/
  | claim (pid : Nat) (firmware : Except Error Bytes)
  /-- A proxy that deploys makes its next call. -/
  | call (pid : Nat) (key : String) (env : Env)
  /-- A proxy that deploys gets stuck in its upload. -/
  | stall (pid : Nat) (key : String) (env : Env) (chunks : Nat)
  /-- A board is reset by something else than a deploy. -/
  | reset (key : String)

namespace Fleet

/-- Before the first invocation. -/
def initial (w : String → World) : Fleet := ⟨System.initial, fun key => .fresh (w key)⟩

/-- A move of the board under `key`. -/
def onBoard (sha256 : Bytes → Bytes) (f : Fleet) (key : String) (m : BoardMove) : Option Fleet :=
  ((f.boards key).step sha256 m).map fun b => { f with boards := Function.update f.boards key b }

/-- The live proxy with this pid, past its claim. -/
def deploying (f : Fleet) (pid : Nat) : Option Resident :=
  (f.sys.proxies.find? fun r => r.pid == pid).filter fun r => r.proxy.stage == .deploying

/-- The live proxy with this pid, about to claim a device that is free. -/
def granted (f : Fleet) (pid : Nat) : Option (Resident × String) :=
  (f.sys.proxies.find? fun r => r.pid == pid).bind fun r =>
    match r.proxy.stage with
    | .claiming key => if f.sys.locked (deviceLock key) then none else some (r, key)
    | _ => none

/-- The deploy of a proxy, with what became of its file. -/
def deployOf (p : Proxy) (firmware : Except Error Bytes) : Deploy :=
  ⟨p.firmware, firmware, p.skipIfSame⟩

/-- The move is a claim. -/
def isClaim : SystemMove → Bool
  | .claim _ => true
  | _ => false

/-- One step. -/
def step (root : String) (sha256 : Bytes → Bytes) (f : Fleet) : FleetMove → Option Fleet
  | .system m =>
    if isClaim m then none else (f.sys.step root m).map fun sys => { f with sys }
  | .claim pid firmware => do
    let sys ← f.sys.step root (.claim pid)
    match f.granted pid with
    | some (r, key) =>
      onBoard sha256 { f with sys } key (.begin r.creator (deployOf r.proxy firmware))
    | none => some { f with sys }
  | .call pid key env => do
    let r ← f.deploying pid
    f.onBoard sha256 key (.call r.creator env)
  | .stall pid key env chunks => do
    let r ← f.deploying pid
    f.onBoard sha256 key (.stall r.creator env chunks)
  | .reset key => f.onBoard sha256 key .reset

/-- What runs reach. -/
abbrev Reaches (root : String) (sha256 : Bytes → Bytes) (w : String → World)
    (guard : Fleet → FleetMove → Prop) : Fleet → Prop :=
  Transition.Reaches (step root sha256) guard (initial w)

variable {root : String} {sha256 : Bytes → Bytes} {w : String → World} {f f' : Fleet}
  {m : FleetMove} {key : String} {guard : Fleet → FleetMove → Prop} {r r' : Resident} {c : Nat}

/-! ## What a step does -/

/-- The creator of a proxy that is past its claim, and a call or a stall of its deploy. -/
inductive CallsAs (f : Fleet) (key : String) : FleetMove → Nat → BoardMove → Prop where
  | call {r : Resident} {env : Env} (hr : r ∈ f.sys.proxies) :
      CallsAs f key (.call r.pid key env) r.creator (.call r.creator env)
  | stall {r : Resident} {env : Env} {chunks : Nat} (hr : r ∈ f.sys.proxies) :
      CallsAs f key (.stall r.pid key env chunks) r.creator (.stall r.creator env chunks)

/-- What becomes of a host and its boards. -/
inductive Stepped (root : String) (sha256 : Bytes → Bytes) (f : Fleet) : FleetMove → Fleet → Prop
    where
  | system {m : FleetMove} {m' : SystemMove} {sys : System}
      (hstep : f.sys.step root m' = some sys) : Stepped root sha256 f m ⟨sys, f.boards⟩
  | begins {r : Resident} {key : String} {firmware : Except Error Bytes} {sys : System}
      (hr : r ∈ f.sys.proxies) (hfree : f.sys.locked (deviceLock key) = false)
      (hstep : f.sys.step root (.claim r.pid) = some sys)
      (hlocked : ∃ r' ∈ sys.proxies, r'.creator = r.creator ∧ deviceLock key ∈ r'.proxy.locks) :
      Stepped root sha256 f (.claim r.pid firmware) ⟨sys, Function.update f.boards key
        ⟨(f.boards key).world, ⟨r.creator, deployOf r.proxy firmware,
          some (deployOf r.proxy firmware).run.run⟩ :: (f.boards key).deployments⟩⟩
  | calls {m : FleetMove} {key : String} {c : Nat} {bm : BoardMove} {b : Board}
      (hcalls : f.CallsAs key m c bm) (hstep : (f.boards key).step sha256 bm = some b) :
      Stepped root sha256 f m ⟨f.sys, Function.update f.boards key b⟩
  | reset {key : String} {b : Board} (hstep : (f.boards key).step sha256 .reset = some b) :
      Stepped root sha256 f (.reset key) ⟨f.sys, Function.update f.boards key b⟩

theorem onBoard_eq_some {bm : BoardMove} (h : f.onBoard sha256 key bm = some f') :
    ∃ b, (f.boards key).step sha256 bm = some b ∧
      f' = ⟨f.sys, Function.update f.boards key b⟩ := by
  obtain ⟨b, hb, rfl⟩ := Option.map_eq_some_iff.mp h
  exact ⟨b, hb, rfl⟩

theorem deploying_eq_some {pid : Nat} (h : f.deploying pid = some r) :
    r ∈ f.sys.proxies ∧ r.pid = pid := by
  obtain ⟨hfind, -⟩ := Option.filter_eq_some_iff.mp h
  exact ⟨List.mem_of_find?_eq_some hfind, by simpa using List.find?_some hfind⟩

theorem granted_eq_some {pid : Nat} (h : f.granted pid = some (r, key)) :
    r ∈ f.sys.proxies ∧ r.pid = pid ∧ r.proxy.stage = .claiming key ∧
      f.sys.locked (deviceLock key) = false := by
  obtain ⟨r₁, hfind, hr₁⟩ := Option.bind_eq_some_iff.mp h
  split at hr₁
  · rename_i key₁ hstage
    split at hr₁
    · cases hr₁
    · rename_i hfree
      cases hr₁
      exact ⟨List.mem_of_find?_eq_some hfind, by simpa using List.find?_some hfind, hstage,
        Bool.eq_false_iff.mpr hfree⟩
  · cases hr₁

/-- A claim of a free device is granted. -/
theorem locks_of_claim {sys sys' : System} (hd : sys.Distinct) (hr : r ∈ sys.proxies)
    (hstage : r.proxy.stage = .claiming key) (hfree : sys.locked (deviceLock key) = false)
    (hstep : sys.step root (.claim r.pid) = some sys') :
    ∃ r' ∈ sys'.proxies, r'.creator = r.creator ∧ deviceLock key ∈ r'.proxy.locks := by
  obtain ⟨r₁, hr₁, hpid, p, hp, rfl⟩ := System.onProxy_eq_some hstep
  obtain rfl := hd.eq hr₁ hr hpid
  refine ⟨{ r₁ with proxy := p }, List.mem_map.mpr ⟨r₁, hr₁, if_pos rfl⟩, rfl, ?_⟩
  obtain ⟨key', hstage', ⟨hlocked, -⟩ | ⟨-, rfl⟩⟩ := System.claimed_stage hp
  · rw [hstage] at hstage'
    cases hstage'
    rw [hfree] at hlocked
    cases hlocked
  · rw [hstage] at hstage'
    cases hstage'
    exact List.mem_cons_self

theorem stepped (hd : f.sys.Distinct) (h : f.step root sha256 m = some f') :
    Stepped root sha256 f m f' := by
  cases m with
  | system m =>
    simp only [step] at h
    split at h
    · cases h
    · obtain ⟨sys, hstep, rfl⟩ := Option.map_eq_some_iff.mp h
      exact .system hstep
  | claim pid firmware =>
    obtain ⟨sys, hstep, hgo⟩ := Option.bind_eq_some_iff.mp h
    split at hgo
    · rename_i r key hgranted
      obtain ⟨hr, rfl, hstage, hfree⟩ := granted_eq_some hgranted
      obtain ⟨b, hb, rfl⟩ := onBoard_eq_some hgo
      cases hb
      exact .begins hr hfree hstep (locks_of_claim hd hr hstage hfree hstep)
    · cases hgo
      exact .system hstep
  | call pid key env =>
    obtain ⟨r, hr, hgo⟩ := Option.bind_eq_some_iff.mp h
    obtain ⟨hmem, rfl⟩ := deploying_eq_some hr
    obtain ⟨b, hb, rfl⟩ := onBoard_eq_some hgo
    exact .calls (.call hmem) hb
  | stall pid key env chunks =>
    obtain ⟨r, hr, hgo⟩ := Option.bind_eq_some_iff.mp h
    obtain ⟨hmem, rfl⟩ := deploying_eq_some hr
    obtain ⟨b, hb, rfl⟩ := onBoard_eq_some hgo
    exact .calls (.stall hmem) hb
  | reset key =>
    obtain ⟨b, hb, rfl⟩ := onBoard_eq_some h
    exact .reset hb

/-- The verbs and the proxies of a host run as they do without boards. -/
theorem reaches_sys (h : Reaches root sha256 w guard f) :
    System.Reaches root Transition.Any f.sys := by
  induction h with
  | refl => exact .refl
  | step h _ hstep ih =>
    cases stepped (System.distinct ih) hstep with
    | system hsys => exact .step ih trivial hsys
    | begins _ _ hsys _ => exact .step ih trivial hsys
    | calls _ _ => exact ih
    | reset _ => exact ih

/-! ## One deploy at a time -/

/-- The deploys of the boards and the live proxies: a proxy with a deploy on a board still
holds the claim of its device, its creator has spawned it, and only the latest deploy of a
board has a live proxy. -/
structure Claimed (f : Fleet) : Prop where
  held : ∀ key, ∀ c ∈ (f.boards key).creators, ∀ r ∈ f.sys.proxies, r.creator = c →
    deviceLock key ∈ r.proxy.locks
  spawned : ∀ key, ∀ c ∈ (f.boards key).creators, ∃ inv args pid,
    f.sys.invocations[c]? = some inv ∧ inv.told.Spawned args pid
  latest : ∀ key, ∀ c ∈ (f.boards key).creators.tail, ∀ r ∈ f.sys.proxies, r.creator ≠ c

/-- A proxy whose creator has spawned before was there before the step, with no more locks. -/
theorem resident_before {sys sys' : System} {sm : SystemMove}
    (hsys : System.Reaches root Transition.Any sys) (hstep : sys.step root sm = some sys')
    (hspawned : ∃ inv args pid, sys.invocations[c]? = some inv ∧ inv.told.Spawned args pid)
    (hr' : r' ∈ sys'.proxies) (hcreator : r'.creator = c) :
    ∃ r ∈ sys.proxies, r.creator = c ∧ r.proxy.locks ⊆ r'.proxy.locks := by
  rcases System.step_proxy (System.distinct hsys) hstep hr' with
    ⟨r, hr, -, hsame, hbecomes⟩ | ⟨i, inv, exe, args, htells, heq⟩
  · exact ⟨r, hr, hsame.symm.trans hcreator, hbecomes.continues.locks⟩
  · -- a creator spawns once
    obtain ⟨inv', args', pid', hinv', hold⟩ := hspawned
    obtain ⟨-, -, -, -, -, hfirst⟩ := (htells.allowed hsys).1
    rw [← hcreator, heq] at hinv'
    rw [htells.running.1] at hinv'
    cases hinv'
    exact absurd hold (hfirst args' pid')

/-- Whatever the verbs and the proxies do, what is claimed stays claimed. -/
theorem Claimed.sys {sys : System} {sm : SystemMove} (hc : f.Claimed)
    (hsys : System.Reaches root Transition.Any f.sys) (hstep : f.sys.step root sm = some sys) :
    Claimed ⟨sys, f.boards⟩ := by
  refine ⟨?_, ?_, ?_⟩
  · intro key c hmem r' hr' hcreator
    obtain ⟨r, hr, hsame, hlocks⟩ :=
      resident_before hsys hstep (hc.spawned key c hmem) hr' hcreator
    exact hlocks (hc.held key c hmem r hr hsame)
  · intro key c hmem
    obtain ⟨inv, args, pid, hinv, exe, hexe⟩ := hc.spawned key c hmem
    obtain ⟨inv', hinv', hcont⟩ := System.step_continues hstep hinv
    exact ⟨inv', args, pid, hinv', exe, hcont.told.subset hexe⟩
  · intro key c hmem r' hr' hcreator
    obtain ⟨r, hr, hsame, -⟩ :=
      resident_before hsys hstep (hc.spawned key c (List.mem_of_mem_tail hmem)) hr' hcreator
    exact hc.latest key c hmem r hr hsame

/-- Only who deploys counts. -/
theorem Claimed.of_creators (hc : f.Claimed) {b : Board}
    (hsame : b.creators = (f.boards key).creators) :
    Claimed ⟨f.sys, Function.update f.boards key b⟩ := by
  have hboards (key' : String) : (Function.update f.boards key b key').creators =
      (f.boards key').creators := by
    by_cases hkey : key' = key
    · subst hkey
      rw [Function.update_self, hsame]
    · rw [Function.update_of_ne hkey]
  refine ⟨?_, ?_, ?_⟩
  · intro key' c hmem
    exact hc.held key' c (hboards key' ▸ hmem)
  · intro key' c hmem
    exact hc.spawned key' c (hboards key' ▸ hmem)
  · intro key' c hmem
    exact hc.latest key' c (hboards key' ▸ hmem)

/-- No proxy with a deploy on a board is there to be seen while its device is free. -/
theorem Claimed.not_live (hc : f.Claimed) (hfree : f.sys.locked (deviceLock key) = false)
    (hr : r ∈ f.sys.proxies) : r.creator ∉ (f.boards key).creators := by
  intro hmem
  rw [System.locked_of_mem hr (hc.held key _ hmem r hr rfl)] at hfree
  cases hfree

theorem Claimed.begins {sys : System} {d : Deployment} {world : World} (hc : f.Claimed)
    (hsys : System.Reaches root Transition.Any f.sys)
    (hfree : f.sys.locked (deviceLock key) = false) (hr : r ∈ f.sys.proxies)
    (hstep : f.sys.step root (.claim r.pid) = some sys)
    (hlocked : ∃ r' ∈ sys.proxies, r'.creator = r.creator ∧ deviceLock key ∈ r'.proxy.locks)
    (hd : d.creator = r.creator) :
    Claimed ⟨sys, Function.update f.boards key ⟨world, d :: (f.boards key).deployments⟩⟩ := by
  have hsys' : System.Reaches root Transition.Any sys := .step hsys trivial hstep
  have hc' : Claimed ⟨sys, f.boards⟩ := hc.sys hsys hstep
  have hboard (c : Nat) : c ∈ (Board.mk world (d :: (f.boards key).deployments)).creators ↔
      c = r.creator ∨ c ∈ (f.boards key).creators := by
    rw [Board.creators, List.map_cons, List.mem_cons, hd]
    rfl
  refine ⟨?_, ?_, ?_⟩
  · intro key' c hmem r' hr' hcreator
    by_cases hkey : key' = key
    · subst hkey
      simp only [Function.update_self, hboard] at hmem
      rcases hmem with rfl | hmem
      · obtain ⟨r₁, hr₁, hsame, hlock⟩ := hlocked
        have hpid := System.Born.pid_eq hsys' (System.born hsys' hr₁) (System.born hsys' hr')
          (hsame.trans hcreator.symm)
        rwa [← (System.distinct hsys').eq hr₁ hr' hpid]
      · exact hc'.held key' c hmem r' hr' hcreator
    · simp only [Function.update_of_ne hkey] at hmem
      exact hc'.held key' c hmem r' hr' hcreator
  · intro key' c hmem
    by_cases hkey : key' = key
    · subst hkey
      simp only [Function.update_self, hboard] at hmem
      rcases hmem with rfl | hmem
      · obtain ⟨inv, args, hborn⟩ := System.born hsys hr
        obtain ⟨inv', hinv', hcont⟩ := System.step_continues hstep hborn.creator
        obtain ⟨exe, hexe⟩ := hborn.spawned
        exact ⟨inv', args, r.pid, hinv', exe, hcont.told.subset hexe⟩
      · exact hc'.spawned key' c hmem
    · simp only [Function.update_of_ne hkey] at hmem
      exact hc'.spawned key' c hmem
  · intro key' c hmem r' hr' hcreator
    by_cases hkey : key' = key
    · subst hkey
      simp only [Function.update_self, Board.creators, List.map_cons, List.tail_cons] at hmem
      -- whoever deployed before held the device, which was free
      obtain ⟨r₁, hr₁, hsame, -⟩ := resident_before hsys hstep (hc.spawned key' c hmem) hr' hcreator
      refine hc.not_live hfree hr₁ ?_
      rw [hsame]
      exact hmem
    · simp only [Function.update_of_ne hkey] at hmem
      exact hc'.latest key' c hmem r' hr' hcreator

/-- A call or a stall changes nobody's turn. -/
theorem CallsAs.creators {bm : BoardMove} {b : Board} (h : f.CallsAs key m c bm)
    (hstep : (f.boards key).step sha256 bm = some b) : b.creators = (f.boards key).creators := by
  cases h with
  | call hr =>
    simp only [Board.step] at hstep
    split at hstep
    · cases hstep
      exact Board.creators_goOn ..
    · cases hstep
  | stall hr =>
    simp only [Board.step] at hstep
    split at hstep
    · cases hstep
      exact Board.creators_goOn ..
    · cases hstep

theorem Claimed.step (hc : f.Claimed) (hsys : System.Reaches root Transition.Any f.sys)
    (h : Stepped root sha256 f m f') : f'.Claimed := by
  cases h with
  | system hstep => exact hc.sys hsys hstep
  | begins hr hfree hstep hlocked => exact hc.begins hsys hfree hr hstep hlocked rfl
  | calls hcalls hstep => exact hc.of_creators (hcalls.creators hstep)
  | reset hstep =>
    cases hstep
    exact hc.of_creators rfl

theorem claimed (h : Reaches root sha256 w guard f) : f.Claimed := by
  refine h.invariant (show (initial w).Claimed from ⟨nofun, nofun, nofun⟩) ?_
  intro f f' m hf hc _ hstep
  exact hc.step (reaches_sys hf) (stepped (System.distinct (reaches_sys hf)) hstep)

/-- Who can call has a deploy there, and it is the latest. -/
theorem Claimed.head (hc : f.Claimed) (hr : r ∈ f.sys.proxies)
    {p : Program Call Call.Reply (Except Failure Unit)}
    (hrest : (f.boards key).rest r.creator = some p) :
    (f.boards key).creators.head? = some r.creator := by
  obtain ⟨d, hfind, -⟩ := Option.bind_eq_some_iff.mp hrest
  have hmem : r.creator ∈ (f.boards key).creators := by
    refine List.mem_map.mpr ⟨d, List.mem_of_find?_eq_some hfind, ?_⟩
    simpa using List.find?_some hfind
  cases hcreators : (f.boards key).creators with
  | nil =>
    rw [hcreators] at hmem
    cases hmem
  | cons c₀ older =>
    rw [hcreators] at hmem
    rcases List.mem_cons.mp hmem with heq | hmem
    · rw [heq]
      rfl
    · refine absurd rfl (hc.latest key _ ?_ r hr)
      rw [hcreators]
      exact hmem

/-- A call or a stall is in turn. -/
theorem CallsAs.inTurn {bm : BoardMove} {b : Board} (h : f.CallsAs key m c bm) (hc : f.Claimed)
    (hstep : (f.boards key).step sha256 bm = some b) : (f.boards key).InTurn bm := by
  cases h with
  | call hr =>
    simp only [Board.step] at hstep
    split at hstep
    · rename_i hrest
      exact hc.head hr hrest
    · cases hstep
  | stall hr =>
    simp only [Board.step] at hstep
    split at hstep
    · rename_i hrest
      exact hc.head hr hrest
    · cases hstep

/-- The move of the host as the board under `key` sees it. -/
inductive SeenAs (f : Fleet) (key : String) : FleetMove → BoardMove → Prop where
  | begin {pid creator : Nat} {firmware : Except Error Bytes} {d : Deploy} :
      SeenAs f key (.claim pid firmware) (.begin creator d)
  | calls {m : FleetMove} {c : Nat} {bm : BoardMove} (h : f.CallsAs key m c bm) : SeenAs f key m bm
  | reset : SeenAs f key (.reset key) .reset

/-- **A step of the host is on each board nothing, or one move in turn.** -/
theorem board_step (hc : f.Claimed) (h : Stepped root sha256 f m f') (key : String) :
    f'.boards key = f.boards key ∨ ∃ bm, f.SeenAs key m bm ∧ (f.boards key).InTurn bm ∧
      (f.boards key).step sha256 bm = some (f'.boards key) := by
  cases h with
  | system _ => exact .inl rfl
  | @begins r key' firmware sys hr hfree _ _ =>
    by_cases hkey : key = key'
    · subst hkey
      refine .inr ⟨.begin r.creator (deployOf r.proxy firmware), .begin, hc.not_live hfree hr, ?_⟩
      simp only [Function.update_self]
      rfl
    · exact .inl (Function.update_of_ne hkey _ _)
  | @calls m key' c bm b hcalls hstep =>
    by_cases hkey : key = key'
    · subst hkey
      refine .inr ⟨bm, .calls hcalls, hcalls.inTurn hc hstep, ?_⟩
      simp only [Function.update_self]
      exact hstep
    · exact .inl (Function.update_of_ne hkey _ _)
  | @reset key' b hstep =>
    by_cases hkey : key = key'
    · subst hkey
      refine .inr ⟨.reset, .reset, trivial, ?_⟩
      simp only [Function.update_self]
      exact hstep
    · exact .inl (Function.update_of_ne hkey _ _)

/-- **Every board sees one deploy at a time.**  Whatever verbs run, in any order and side by
side, whichever processes are killed at whichever of their calls, and whenever boards are
reset: on each board a deploy begins at most once, and only the latest one makes calls. -/
theorem boards_in_turn (root : String) (sha256 : Bytes → Bytes) (w : String → World) (f : Fleet)
    (h : Reaches root sha256 w Transition.Any f) (key : String) :
    Transition.Reaches (Board.step sha256) Board.InTurn (.fresh (w key)) (f.boards key) := by
  induction h with
  | refl => exact .refl
  | step h _ hstep ih =>
    rcases board_step (claimed h) (stepped (System.distinct (reaches_sys h)) hstep) key with
      hsame | ⟨bm, -, hturn, hboard⟩
    · rw [hsame]
      exact ih
    · exact .step ih hturn hboard

/-- Two containers name one board.  The first one's proxy claims it, is killed in the middle
of its upload, and leaves the board to the second one's. -/
def killedInUpload : List FleetMove :=
  System.claimedFirst.dropLast.map .system ++
    .claim 100 (.ok (Mcuboot.signedImage (List.replicate 32 1))) ::
      List.replicate 5 (.call 100 "/dev/ttyACM0" attachedEnv) ++
    [.stall 100 "/dev/ttyACM0" attachedEnv 1, .system (.die 100)]

/-- The second deploys. -/
def secondDeploys : List FleetMove := List.replicate 17 (.call 200 "/dev/ttyACM0" attachedEnv)

def factoryBoards (_ : String) : World := .start (.fresh sampleSha256 .none) "2.0.0"

theorem fielded_factoryBoards (key : String) : Fielded sampleSha256 (factoryBoards key) :=
  .provisioned (Device.provisioned_eq .none)

/-- The first run, and after it the second one, go through. -/
theorem killedInUpload_leads :
    ((killedInUpload.foldlM (step "/run/runtt" sampleSha256) (initial factoryBoards)).any fun f =>
      decide ((f.granted 200).map (fun x => (x.1.creator, x.2)) = some (1, "/dev/ttyACM0")) &&
        decide (contractMajor (f.boards "/dev/ttyACM0").world.srv.contract =
          some CONTRACT_MAJOR) &&
        ((f.step "/run/runtt" sampleSha256 (.claim 200
          (.ok (Mcuboot.signedImage (List.replicate 32 2))))).any fun f₁ =>
            (secondDeploys.foldlM (step "/run/runtt" sampleSha256) f₁).any fun f' =>
              decide ((f'.boards "/dev/ttyACM0").creators = [1, 0]) &&
                ((f'.boards "/dev/ttyACM0").result 1).isSome)) = true := by
  decide +kernel

/-- The two runs, step by step. -/
theorem second_deploys : ∃ f r f₁ f' o,
    killedInUpload.foldlM (step "/run/runtt" sampleSha256) (initial factoryBoards) = some f ∧
    f.granted 200 = some (r, "/dev/ttyACM0") ∧ r.creator = 1 ∧
    contractMajor (f.boards "/dev/ttyACM0").world.srv.contract = some CONTRACT_MAJOR ∧
    f.step "/run/runtt" sampleSha256 (.claim 200
      (.ok (Mcuboot.signedImage (List.replicate 32 2)))) = some f₁ ∧
    secondDeploys.foldlM (step "/run/runtt" sampleSha256) f₁ = some f' ∧
    (f'.boards "/dev/ttyACM0").creators = [1, 0] ∧
    (f'.boards "/dev/ttyACM0").result 1 = some o := by
  obtain ⟨f, hrun, hf⟩ := (Option.any_eq_true _ _).mp killedInUpload_leads
  simp only [Bool.and_eq_true, decide_eq_true_eq] at hf
  obtain ⟨⟨hgranted, hcontract⟩, hclaim⟩ := hf
  obtain ⟨⟨r, key⟩, hgranted, heq⟩ := Option.map_eq_some_iff.mp hgranted
  obtain ⟨hcreator, rfl⟩ := Prod.mk.inj heq
  obtain ⟨f₁, hclaim, hsecond⟩ := (Option.any_eq_true _ _).mp hclaim
  obtain ⟨f', hsecond, hends⟩ := (Option.any_eq_true _ _).mp hsecond
  simp only [Bool.and_eq_true, decide_eq_true_eq] at hends
  obtain ⟨o, ho⟩ := Option.isSome_iff_exists.mp hends.2
  exact ⟨f, r, f₁, f', o, hrun, hgranted, hcreator, hcontract, hclaim, hsecond, hends.1, ho⟩

theorem reaches_foldlM {ms : List FleetMove}
    (h : ms.foldlM (step root sha256) (initial w) = some f) :
    Reaches root sha256 w Transition.Any f :=
  .run_of_forall .refl (fun _ _ _ => trivial) h

/-- The board of the first run is left in the middle of an upload, by the one deploy that
came to it. -/
theorem boards_in_turn_killed : ∃ f,
    killedInUpload.foldlM (step "/run/runtt" sampleSha256) (initial factoryBoards) = some f ∧
    Transition.Reaches (Board.step sampleSha256) Board.InTurn
      (.fresh (factoryBoards "/dev/ttyACM0")) (f.boards "/dev/ttyACM0") := by
  obtain ⟨f, -, -, -, -, hrun, -⟩ := second_deploys
  exact ⟨f, hrun, boards_in_turn "/run/runtt" sampleSha256 factoryBoards f (reaches_foldlM hrun) _⟩

/-! ## What boards keep, and what a deploy does -/

theorem sane_fresh {w : World} (h : Fielded sha256 w) : (Board.fresh w).Sane :=
  ⟨List.nodup_nil, h.healthy, h.kept, nofun⟩

/-- Every board of a host is sane. -/
theorem sane (hw : ∀ key, Fielded sha256 (w key)) (h : Reaches root sha256 w guard f)
    (key : String) : (f.boards key).Sane := by
  refine h.invariant (I := fun f => (f.boards key).Sane) (sane_fresh (hw key)) ?_
  intro f f' m hf hs _ hstep
  rcases board_step (claimed hf) (stepped (System.distinct (reaches_sys hf)) hstep) key with
    hsame | ⟨bm, -, hturn, hboard⟩
  · rw [hsame]
    exact hs
  · exact hs.took (Board.took_of_step hs.once hturn hboard)

/-- **No board is lost.**  Whatever happens on the host, deploys cut off at any call or in the
middle of an upload included: at any time, and after any number of resets from there, every
board runs a bootable image. -/
theorem boards_boot (hw : ∀ key, Fielded sha256 (w key))
    (h : Reaches root sha256 w Transition.Any f)
    (key : String) (n : Nat) :
    ∃ s, (Device.reset^[n] (f.boards key).world.srv.dev).slot0 = some s ∧ s.bootable = true :=
  (sane hw h key).boots n

/-- Left in the middle of an upload, the board runs, now and after three resets. -/
theorem boards_boot_killed : ∃ f,
    killedInUpload.foldlM (step "/run/runtt" sampleSha256) (initial factoryBoards) = some f ∧
    ∃ s, (Device.reset^[3] (f.boards "/dev/ttyACM0").world.srv.dev).slot0 = some s ∧
      s.bootable = true := by
  obtain ⟨f, -, -, -, -, hrun, -⟩ := second_deploys
  exact ⟨f, hrun, boards_boot fielded_factoryBoards (reaches_foldlM hrun) "/dev/ttyACM0" 3⟩

/-- Nothing disturbs the deploy of `c` on the board under `key`: its calls get through in
`env`, it is not cut off, and while it is the latest nothing else resets the board.  What
happens elsewhere on the host is not limited. -/
def Undisturbed (key : String) (c : Nat) (env : Env) (f : Fleet) : FleetMove → Prop
  | .call pid key' env' =>
    key' = key → ∀ r ∈ f.sys.proxies, r.pid = pid → r.creator = c → env' = env
  | .stall pid key' _ _ => key' = key → ∀ r ∈ f.sys.proxies, r.pid = pid → r.creator ≠ c
  | .reset key' => key' = key → (f.boards key).creators.head? ≠ some c
  | _ => True

theorem SeenAs.undisturbed {env : Env} {bm : BoardMove} (h : f.SeenAs key m bm)
    (hfree : Undisturbed key c env f m) : Board.Undisturbed c env (f.boards key) bm := by
  cases h with
  | begin => trivial
  | calls hcalls =>
    cases hcalls with
    | call hr => exact hfree rfl _ hr rfl
    | stall hr => exact hfree rfl _ hr rfl
  | reset => exact hfree rfl

/-- What a granted claim begins. -/
theorem begun {pid : Nat} {firmware : Except Error Bytes} (hgranted : f.granted pid = some (r, key))
    (hclaim : f.step root sha256 (.claim pid firmware) = some f') :
    (f'.boards key).world = (f.boards key).world ∧
      (f'.boards key).deployments = ⟨r.creator, deployOf r.proxy firmware,
        some (deployOf r.proxy firmware).run.run⟩ :: (f.boards key).deployments := by
  obtain ⟨sys, -, hgo⟩ := Option.bind_eq_some_iff.mp hclaim
  simp only [hgranted] at hgo
  obtain ⟨b, hb, rfl⟩ := onBoard_eq_some hgo
  cases hb
  refine ⟨?_, ?_⟩ <;> simp only [Function.update_self]

/-- **A deploy that nobody disturbs delivers.**  However a host came to where it is, and
whatever goes on beside it on other boards, with other containers and with its own: a proxy
that is granted its claim and reads an accepted file, and whose calls get through to the
board, has, once its deploy is over, deployed it without an error, and until the next deploy
begins the board runs its image, confirmed. -/
theorem undisturbed_delivers (hw : ∀ key, Fielded sha256 (w key))
    (h : Reaches root sha256 w Transition.Any f) {pid : Nat} {image digest : Bytes}
    (hgranted : f.granted pid = some (r, key)) {f₁ : Fleet}
    (hclaim : f.step root sha256 (.claim pid (.ok image)) = some f₁)
    (hacc : Mcuboot.Accepts image digest) {env : Env} (henv : env.Attached)
    (hcontract : contractMajor (f.boards key).world.srv.contract = some CONTRACT_MAJOR)
    (hrun : Transition.Reaches (Fleet.step root sha256) (Undisturbed key r.creator env) f₁ f')
    {o : Except Failure Unit} (hover : (f'.boards key).result r.creator = some o) :
    o = .ok () ∧ ((f'.boards key).creators.head? = some r.creator →
      Delivered digest (f'.boards key).world.srv.dev) := by
  obtain ⟨hworld, hbegun⟩ := begun hgranted hclaim
  have h₁ : Reaches root sha256 w Transition.Any f₁ := .step h trivial hclaim
  obtain ⟨hreach', hunder⟩ : Reaches root sha256 w Transition.Any f' ∧
      Board.Under sha256 env (f₁.boards key).world
        ⟨r.creator, deployOf r.proxy (.ok image), none⟩ (f'.boards key) := by
    clear hover
    induction hrun with
    | refl => exact ⟨h₁, ⟨[], _, _, [], _, hbegun, .nil _, .nil _, fun _ => rfl⟩⟩
    | step _ hguard hstep ih =>
      obtain ⟨hreach, hunder⟩ := ih
      refine ⟨.step hreach trivial hstep, ?_⟩
      have hstepped := stepped (System.distinct (reaches_sys hreach)) hstep
      rcases board_step (claimed hreach) hstepped key with hsame | ⟨bm, hseen, hturn, hboard⟩
      · rw [hsame]
        exact hunder
      · exact hunder.took (hseen.undisturbed hguard)
          (Board.took_of_step (sane hw hreach key).once hturn hboard)
  have hs := sane hw h₁ key
  refine hunder.ended (sane hw hreach' key) hs.healthy hs.kept henv ?_ rfl hacc hover
  rw [hworld]
  exact hcontract

/-- The second deploy delivers to the board that the first one left in the middle of an
upload. -/
theorem undisturbed_delivers_second : ∃ f f₁ f',
    killedInUpload.foldlM (step "/run/runtt" sampleSha256) (initial factoryBoards) = some f ∧
    f.step "/run/runtt" sampleSha256 (.claim 200
      (.ok (Mcuboot.signedImage (List.replicate 32 2)))) = some f₁ ∧
    secondDeploys.foldlM (step "/run/runtt" sampleSha256) f₁ = some f' ∧
    Delivered (List.replicate 32 2) (f'.boards "/dev/ttyACM0").world.srv.dev := by
  obtain ⟨f, r, f₁, f', o, hrun, hgranted, hcreator, hcontract, hclaim, hsecond, hcreators, ho⟩ :=
    second_deploys
  have hfree : ∀ m ∈ secondDeploys, ∀ f,
      Undisturbed "/dev/ttyACM0" r.creator attachedEnv f m := by
    intro m hm f
    obtain rfl := List.eq_of_mem_replicate hm
    exact fun _ _ _ _ _ => rfl
  rw [← hcreator] at ho
  have hdelivers := (undisturbed_delivers fielded_factoryBoards (reaches_foldlM hrun) hgranted
    hclaim (Mcuboot.accepts_signedImage List.length_replicate) attachedEnv_attached hcontract
    (.run_of_forall .refl hfree hsecond) ho).2
  refine ⟨f, f₁, f', hrun, hclaim, hsecond, hdelivers ?_⟩
  rw [hcreators, hcreator]
  rfl

end Fleet
end Runtt
