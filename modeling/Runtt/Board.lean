import Mathlib.Data.List.Nodup
import Runtt.Redeploy
import Runtt.Transition

/-! # A board that deploys come to

A board is a mock and the deploys that have come to it, the latest first.  Each is a program
that is some way on: it makes its calls one by one, may get stuck in an upload, and may never
make another call, for its process can be killed at any time.  `InTurn` is the discipline of
one deploy at a time, in which only the latest makes calls.

What is proved of a board in turn: it stays in a state from which a deploy heals (`Sane`),
and a deploy that nobody disturbs has installed its image once it is over (`Under`).
-/
namespace Runtt

open Interaction Program

/-- A deploy on its way: the invocation that created its proxy, and what is left of it;
`none` if it is stuck in a call. -/
structure Deployment where
  creator : Nat
  deploy : Deploy
  rest : Option (Program Call Call.Reply (Except Failure Unit))

/-- A board, with the latest deploy first. -/
structure Board where
  world : World
  deployments : List Deployment

/-- What can happen to a board. -/
inductive BoardMove where
  /-- A proxy begins its deploy. -/
  | begin (creator : Nat) (d : Deploy)
  /-- Its next call. -/
  | call (creator : Nat) (env : Env)
  /-- It gets no further in an upload than these chunks. -/
  | stall (creator : Nat) (env : Env) (chunks : Nat)
  /-- The board is reset by something else than a deploy. -/
  | reset

namespace Board

/-- A board that nothing came to yet. -/
def fresh (w : World) : Board := ⟨w, []⟩

def creators (b : Board) : List Nat := b.deployments.map Deployment.creator

/-- What is left of the deploy of this creator. -/
def rest (b : Board) (creator : Nat) : Option (Program Call Call.Reply (Except Failure Unit)) :=
  (b.deployments.find? fun d => d.creator == creator).bind Deployment.rest

/-- The deploy of this creator goes on to `rest`, and leaves the mock in `w`. -/
def goOn (b : Board) (creator : Nat) (w : World)
    (rest : Option (Program Call Call.Reply (Except Failure Unit))) : Board :=
  ⟨w, b.deployments.map fun d => if d.creator = creator then { d with rest } else d⟩

def step (sha256 : Bytes → Bytes) (b : Board) : BoardMove → Option Board
  | .begin creator d => some { b with deployments := ⟨creator, d, some d.run.run⟩ :: b.deployments }
  | .call creator env =>
    match b.rest creator with
    | some (.ask q next) =>
      let a := env.bench sha256 q b.world
      some (b.goOn creator a.2 (some (next a.1)))
    | _ => none
  | .stall creator env chunks =>
    match b.rest creator with
    | some (.ask (.flash image) _) =>
      some (b.goOn creator (env.uploadLoop sha256 image chunks 0 b.world).2 none)
    | _ => none
  | .reset =>
    some { b with world :=
      { b.world with srv := { b.world.srv with dev := b.world.srv.dev.reset } } }

/-- One deploy at a time: each comes once, and only the latest makes calls. -/
def InTurn (b : Board) : BoardMove → Prop
  | .begin creator _ => creator ∉ b.creators
  | .call creator _ | .stall creator _ _ => b.creators.head? = some creator
  | .reset => True

variable {sha256 : Bytes → Bytes} {b b' : Board} {m : BoardMove} {env : Env} {c : Nat}
  {d : Deployment} {older : List Deployment}

theorem creators_goOn (b : Board) (creator : Nat) (w : World)
    (rest : Option (Program Call Call.Reply (Except Failure Unit))) :
    (b.goOn creator w rest).creators = b.creators := by
  rw [creators, goOn, List.map_map, creators]
  refine List.map_congr_left fun d _ => ?_
  rw [Function.comp_apply]
  split <;> rfl

/-! ## What a move in turn does -/

/-- What becomes of a board by a move in turn. -/
inductive Took (sha256 : Bytes → Bytes) (b : Board) : BoardMove → Board → Prop where
  | begin {creator : Nat} (d : Deploy) (hfresh : creator ∉ b.creators) :
      Took sha256 b (.begin creator d) ⟨b.world, ⟨creator, d, some d.run.run⟩ :: b.deployments⟩
  | call {d : Deployment} {older : List Deployment} {env : Env} {q : Call}
      {next : q.Reply → Program Call Call.Reply (Except Failure Unit)}
      (hlatest : b.deployments = d :: older) (hrest : d.rest = some (.ask q next)) :
      Took sha256 b (.call d.creator env) ⟨(env.bench sha256 q b.world).2,
        { d with rest := some (next (env.bench sha256 q b.world).1) } :: older⟩
  | stall {d : Deployment} {older : List Deployment} {env : Env} {chunks : Nat} {image : Bytes}
      {next : Except Error Unit → Program Call Call.Reply (Except Failure Unit)}
      (hlatest : b.deployments = d :: older) (hrest : d.rest = some (.ask (.flash image) next)) :
      Took sha256 b (.stall d.creator env chunks)
        ⟨(env.uploadLoop sha256 image chunks 0 b.world).2, { d with rest := none } :: older⟩
  | reset : Took sha256 b .reset ⟨
      { b.world with srv := { b.world.srv with dev := b.world.srv.dev.reset } }, b.deployments⟩

/-- The latest deploy goes on, and the others stay as they are. -/
theorem goOn_latest (hn : b.creators.Nodup) (hlatest : b.deployments = d :: older) (w : World)
    (rest : Option (Program Call Call.Reply (Except Failure Unit))) :
    b.goOn d.creator w rest = ⟨w, { d with rest } :: older⟩ := by
  rw [creators, hlatest, List.map_cons, List.nodup_cons] at hn
  rw [goOn, hlatest, List.map_cons, if_pos rfl]
  congr 2
  refine (List.map_congr_left fun d' hd' => if_neg fun heq => ?_).trans (List.map_id older)
  exact hn.1 (heq ▸ List.mem_map_of_mem hd')

theorem rest_latest (hlatest : b.deployments = d :: older) : b.rest d.creator = d.rest := by
  rw [rest, hlatest, List.find?_cons_of_pos (by simp)]
  rfl

/-- Who is in turn has the latest deploy. -/
theorem latest_of_inTurn (h : b.creators.head? = some c) :
    ∃ d older, b.deployments = d :: older ∧ d.creator = c := by
  unfold creators at h
  cases hb : b.deployments with
  | nil =>
    rw [hb] at h
    cases h
  | cons d older =>
    rw [hb] at h
    exact ⟨d, older, rfl, Option.some.inj h⟩

theorem took_of_step (hn : b.creators.Nodup) (hturn : b.InTurn m)
    (h : b.step sha256 m = some b') : Took sha256 b m b' := by
  cases m with
  | begin creator d =>
    cases h
    exact .begin d hturn
  | call creator env =>
    obtain ⟨d, older, hlatest, rfl⟩ := latest_of_inTurn hturn
    simp only [step, rest_latest hlatest] at h
    split at h
    · rename_i q next hrest
      cases h
      rw [goOn_latest hn hlatest]
      exact .call hlatest hrest
    · cases h
  | stall creator env chunks =>
    obtain ⟨d, older, hlatest, rfl⟩ := latest_of_inTurn hturn
    simp only [step, rest_latest hlatest] at h
    split at h
    · rename_i image next hrest
      cases h
      rw [goOn_latest hn hlatest]
      exact .stall hlatest hrest
    · cases h
  | reset =>
    cases h
    exact .reset

/-! ## Boards stay sane -/

/-- The mock answers and holds bootable images that a deploy can go on from, and every
deploy is at some point of its program. -/
structure Sane (b : Board) : Prop where
  once : b.creators.Nodup
  healthy : Healthy b.world
  kept : b.world.srv.dev.Kept
  onWay : ∀ d ∈ b.deployments, ∀ p, d.rest = some p → ∃ t, After d.deploy.run.run t p

variable (env) in
/-- However many chunks of an upload get through, they only offer its image. -/
theorem uploadLoop_offers {image : Bytes} {img : Image} {w : World} {off : Nat} (chunks : Nat)
    (hrec : Image.fromBytes sha256 image "2.0.0+staged" = .ok img)
    (hsync : w.srv.dev.InSync sha256 image off) (h : Responsive w) :
    Offered img w (env.uploadLoop sha256 image chunks off w).2 ∧
      Responsive (env.uploadLoop sha256 image chunks off w).2 := by
  induction chunks generalizing off w with
  | zero => exact ⟨.refl _ _, h⟩
  | succ chunks ih =>
    obtain ⟨resp, w₁, hask, hoff, hcases⟩ := ask_chunk env hsync hrec
    have hresp (hsilent : w₁.srv.silent = w.srv.silent) : Responsive w₁ :=
      ⟨hoff.keeps.fault.trans h.noFault, hsilent.trans h.notSilent, hoff.hung.trans h.notHung⟩
    simp only [Env.uploadLoop, hask]
    rcases hcases with ⟨-, hno⟩ | ⟨off', rfl, hsync', -, hsilent⟩ | ⟨-, hno⟩ | ⟨rfl, -, hsilent⟩
    · exact absurd h hno
    · simp only [hsync'.inside, if_true]
      obtain ⟨hoff', hend⟩ := ih hsync' (hresp hsilent)
      exact ⟨hoff.trans hoff', hend⟩
    · exact absurd h hno
    · simp only [Nat.lt_irrefl, if_false]
      exact ⟨hoff, hresp hsilent⟩

/-- So a stuck upload leaves a healthy mock that a deploy can go on from. -/
theorem healthy_stall {image digest : Bytes} {w : World} {chunks : Nat}
    (hacc : Mcuboot.Accepts image digest) (h : Healthy w) (hk : w.srv.dev.Kept) :
    Healthy (env.uploadLoop sha256 image chunks 0 w).2 ∧
      (env.uploadLoop sha256 image chunks 0 w).2.srv.dev.Kept := by
  obtain ⟨img, hrec, -⟩ := Image.fromBytes_of_accepts hacc "2.0.0+staged"
  have hfresh := Image.fresh_of_fromBytes hrec
  obtain ⟨hoff, hresp⟩ := uploadLoop_offers env chunks hrec ⟨hacc.pos, .inl rfl⟩ h.responsive
  refine ⟨⟨hresp, fun s hs => h.bootable0 s (hoff.keeps.slot0 ▸ hs), ?_⟩, hoff.kept hfresh hk⟩
  intro s hs
  rcases hoff.slot1 with hold | hnew
  · exact h.bootable1 s (hold ▸ hs)
  · rw [hnew] at hs
    cases hs
    exact hfresh.bootable

/-- What a deploy that is on its way calls next, one that comes to its end calls. -/
theorem next_call {d : Deploy} {t : List Event} {q : Call}
    {next : q.Reply → Program Call Call.Reply (Except Failure Unit)}
    (h : After d.run.run t (.ask q next)) (w : World) :
    q.writes = false ∨ ∃ image digest, d.firmware = .ok image ∧ Mcuboot.Accepts image digest ∧
      (q = .flash image ∨ (∃ confirm, q = .setState digest confirm) ∨ q = .reset) := by
  obtain ⟨s, o, hruns⟩ := h.asks (attachedEnv.bench sampleSha256) w
    (attachedEnv.bench sampleSha256 q w).1
  exact Deploy.run_writes_cases hruns (List.mem_append_right t List.mem_cons_self)

/-- What becomes of the latest deploy leaves the others on their way. -/
theorem onWay_latest {d' : Deployment} (h : b.Sane) (hlatest : b.deployments = d :: older)
    (hd' : ∀ p, d'.rest = some p → ∃ t, After d'.deploy.run.run t p) :
    ∀ e ∈ d' :: older, ∀ p, e.rest = some p → ∃ t, After e.deploy.run.run t p := by
  refine List.forall_mem_cons.mpr ⟨hd', fun e he => h.onWay e ?_⟩
  rw [hlatest]
  exact List.mem_cons_of_mem d he

theorem Sane.took (h : b.Sane) (ht : Took sha256 b m b') : b'.Sane := by
  cases ht with
  | begin d hfresh =>
    refine ⟨List.nodup_cons.mpr ⟨hfresh, h.once⟩, h.healthy, h.kept, ?_⟩
    refine List.forall_mem_cons.mpr ⟨?_, h.onWay⟩
    intro p hp
    cases hp
    exact ⟨[], .nil _⟩
  | @call d older env q next hlatest hrest =>
    obtain ⟨t, ht⟩ := h.onWay d (by rw [hlatest]; exact List.mem_cons_self) _ hrest
    have hcall := next_call ht b.world
    refine ⟨?_, (h.healthy.call h.kept hcall).1, (h.healthy.call h.kept hcall).2, ?_⟩
    · have honce := h.once
      rw [creators, hlatest] at honce
      exact honce
    · refine onWay_latest h hlatest fun p hp => ?_
      cases hp
      exact ⟨_, ht.snoc _⟩
  | @stall d older env chunks image next hlatest hrest =>
    obtain ⟨t, ht⟩ := h.onWay d (by rw [hlatest]; exact List.mem_cons_self) _ hrest
    obtain ⟨digest, hacc⟩ : ∃ digest, Mcuboot.Accepts image digest := by
      rcases next_call ht b.world with hq | ⟨image', digest, -, hacc, hq | ⟨confirm, hq⟩ | hq⟩
      · cases hq
      · cases hq
        exact ⟨digest, hacc⟩
      · cases hq
      · cases hq
    refine ⟨?_, (healthy_stall hacc h.healthy h.kept).1, (healthy_stall hacc h.healthy h.kept).2,
      onWay_latest h hlatest nofun⟩
    have honce := h.once
    rw [creators, hlatest] at honce
    exact honce
  | reset => exact ⟨h.once, h.healthy.reset, h.kept.reset h.healthy.responsive.noFault, h.onWay⟩

/-- However often it is reset, a sane board runs a bootable image. -/
theorem Sane.boots (h : b.Sane) (n : Nat) :
    ∃ s, (Device.reset^[n] b.world.srv.dev).slot0 = some s ∧ s.bootable = true := by
  have hiterate : ∃ b' : Board, b'.Sane ∧ b'.world.srv.dev = Device.reset^[n] b.world.srv.dev := by
    induction n with
    | zero => exact ⟨b, h, rfl⟩
    | succ n ih =>
      obtain ⟨b', hb', hdev⟩ := ih
      refine ⟨_, hb'.took (.reset : Took sampleSha256 b' .reset _), ?_⟩
      rw [Function.iterate_succ_apply', ← hdev]
  obtain ⟨b', hb', hdev⟩ := hiterate
  rw [← hdev]
  obtain ⟨s, hs⟩ := hb'.kept.running
  exact ⟨s, hs, hb'.healthy.bootable0 s hs⟩

/-! ## A deploy that nobody disturbs -/

/-- Nothing disturbs the deploy of `c`: its calls get through to the mock, it is not cut off,
and while it is the latest nothing else resets the board. -/
def Undisturbed (c : Nat) (env : Env) (b : Board) : BoardMove → Prop
  | .begin _ _ => True
  | .call creator env' => creator = c → env' = env
  | .stall creator _ _ => creator ≠ c
  | .reset => b.creators.head? ≠ some c

/-- The deploy `d`, which began on the board in `w`, has come to where the mock, in `env`,
takes it; while it is the latest, the board is where it took the mock. -/
structure Under (sha256 : Bytes → Bytes) (env : Env) (w : World) (d : Deployment) (b : Board) :
    Prop where
  under : ∃ newer older p t w', b.deployments = newer ++ { d with rest := some p } :: older ∧
    After d.deploy.run.run t p ∧ Along (env.bench sha256) w t w' ∧ (newer = [] → b.world = w')

theorem Under.took {w : World} (h : Under sha256 env w d b)
    (hfree : Undisturbed d.creator env b m) (ht : Took sha256 b m b') :
    Under sha256 env w d b' := by
  obtain ⟨newer, older, p, t, w', hdeps, hafter, halong, hworld⟩ := h
  cases ht with
  | begin d' hfresh =>
    exact ⟨⟨_ :: newer, older, p, t, w', congrArg _ hdeps, hafter, halong, nofun⟩⟩
  | @call d' older' env' q next hlatest hrest =>
    rw [hdeps] at hlatest
    cases newer with
    | nil =>
      -- its own call, in its own environment
      cases hlatest
      obtain rfl := hfree rfl
      cases hrest
      refine ⟨⟨[], older, _, _, _, rfl, hafter.snoc _, ?_, fun _ => rfl⟩⟩
      refine along_append_iff.mpr ⟨w', halong, ?_⟩
      rw [hworld rfl]
      exact .cons rfl (.nil _)
    | cons d₁ newer =>
      cases hlatest
      exact ⟨⟨_ :: newer, older, p, t, w', rfl, hafter, halong, nofun⟩⟩
  | @stall d' older' env' chunks image next hlatest hrest =>
    rw [hdeps] at hlatest
    cases newer with
    | nil =>
      cases hlatest
      exact absurd rfl hfree
    | cons d₁ newer =>
      cases hlatest
      exact ⟨⟨_ :: newer, older, p, t, w', rfl, hafter, halong, nofun⟩⟩
  | reset =>
    cases newer with
    | nil => exact absurd (by rw [creators, hdeps]; rfl) hfree
    | cons d₁ newer => exact ⟨⟨d₁ :: newer, older, p, t, w', hdeps, hafter, halong, nofun⟩⟩

/-- How the deploy of this creator ended, if it has. -/
def result (b : Board) (creator : Nat) : Option (Except Failure Unit) :=
  (b.rest creator).bind Program.ended

/-- **Once it is over, it has installed its image.** -/
theorem Under.ended {w : World} {o : Except Failure Unit} {image digest : Bytes}
    (h : Under sha256 env w d b) (hb : b.Sane) (hh : Healthy w) (hk : w.srv.dev.Kept)
    (henv : env.Attached) (hc : contractMajor w.srv.contract = some CONTRACT_MAJOR)
    (hf : d.deploy.firmware = .ok image) (hacc : Mcuboot.Accepts image digest)
    (hover : b.result d.creator = some o) :
    o = .ok () ∧ (b.creators.head? = some d.creator → Delivered digest b.world.srv.dev) := by
  obtain ⟨newer, older, p, t, w', hdeps, hafter, halong, hworld⟩ := h
  have honce := hb.once
  rw [creators, hdeps, List.map_append, List.map_cons] at honce
  -- its deploy is the one with its creator
  obtain ⟨p', hrest, hdone⟩ := Option.bind_eq_some_iff.mp hover
  obtain ⟨d', hfind, hd'⟩ := Option.bind_eq_some_iff.mp hrest
  obtain rfl : d' = { d with rest := some p } := by
    have hmem : { d with rest := some p } ∈ b.deployments := by
      rw [hdeps]
      exact List.mem_append_right _ List.mem_cons_self
    exact List.inj_on_of_nodup_map hb.once (List.mem_of_find?_eq_some hfind) hmem
      (by simpa using List.find?_some hfind)
  cases hd'
  obtain rfl := ended_eq_some.mp hdone
  have hruns := hafter.runs (.done o)
  rw [List.append_nil] at hruns
  obtain ⟨ho, hdelivered, -⟩ := Deploy.heals hruns halong hh hk henv hc hf hacc
  refine ⟨ho, fun hhead => ?_⟩
  cases newer with
  | nil =>
    rw [hworld rfl]
    exact hdelivered
  | cons d₁ newer =>
    rw [creators, hdeps] at hhead
    rw [List.map_cons, List.cons_append, List.nodup_cons] at honce
    refine absurd ?_ honce.1
    rw [Option.some.inj hhead]
    exact List.mem_append_right _ List.mem_cons_self

end Board
end Runtt
