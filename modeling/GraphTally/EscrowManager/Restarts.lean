import GraphTally.EscrowManager.Startup
import Mathlib.Data.Finset.Insert
import Mathlib.Logic.Relation

/-!
# Restarts

What `main` settles on chain before its loop, however often the process is started, wherever it
ends, and whatever becomes of the transactions it has sent.
-/

open GraphTally.Theory

namespace GraphTally.EscrowManager

/-! ## The contracts -/

inductive Sent where
  | authorizeSigner (signer : Address)
  | approve (amount : U128)
  deriving DecidableEq

/-- The contracts, whose code is not part of the repository, as the start sees them: the signers
the payer has authorized, what the escrow may take of its tokens, and the two transactions. -/
structure OnChain (σ : Type) where
  signers : σ → Finset Address
  allowance : σ → BitVec 256
  executes : Sent → σ → σ → Prop

namespace OnChain

variable {σ : Type} (contracts : OnChain σ)

/-- What is relied on of a transaction that is executed. -/
structure Executes : Prop where
  authorizes : ∀ {signer before after},
    contracts.executes (.authorizeSigner signer) before after →
      contracts.signers after = insert signer (contracts.signers before) ∧
        contracts.allowance after = contracts.allowance before
  approves : ∀ {amount : U128} {before after}, contracts.executes (.approve amount) before after →
    contracts.signers after = contracts.signers before ∧
      contracts.allowance after = amount.setWidth 256

/-- Besides, the payer only deposits, which spends the allowance. -/
def Spends (elsewhere : σ → σ → Prop) : Prop :=
  ∀ before after, elsewhere before after → contracts.signers after = contracts.signers before ∧
    (contracts.allowance after).toNat ≤ (contracts.allowance before).toNat

/-- The subgraph lists nobody who is not authorized. -/
def Lists (listed : σ → List Address → Prop) : Prop :=
  ∀ state authorizedSigners, listed state authorizedSigners →
    ∀ signer ∈ authorizedSigners, signer ∈ contracts.signers state

/-- It lists everybody who is. -/
def ListsAll (listed : σ → List Address → Prop) (state : σ) (authorizedSigners : List Address) :
    Prop :=
  listed state authorizedSigners ∧ ∀ signer ∈ contracts.signers state, signer ∈ authorizedSigners

/-- `u128::try_from(allowance).unwrap_or(u128::MAX)` -/
def readAllowance (state : σ) : U128 :=
  if (contracts.allowance state).toNat < 2 ^ 128 then (contracts.allowance state).setWidth 128
  else BitVec.allOnes 128

end OnChain

/-! ## The process -/

/-- Where `main` is between two of its waits. -/
inductive Stage where
  | fetching
  | authorizing (authorizedSigners : List Address) (left : List Address)
  | reading
  | approving (expectedAllowance : U128)
  | rereading
  | cycling

inductive Phase where
  | ended (reason : Option (Failure StartError))
  | running (settings : Settings) (signers : List Address) (stage : Stage)

def Phase.next (settings : Settings) (signers : List Address) : Outcome StartError Stage → Phase
  | .error e => .ended (some e)
  | .ok stage => .running settings signers stage

namespace Config

variable (config : Config) (wallet : B256 → Except String Address) (profile : Profile)

/-- The checks, the payer's key and those of the signers. -/
def load : Outcome StartError (Settings × List Address) := do
  let settings ← config.check profile
  match wallet config.secretKey with
  | .error e => .error (.error (.secretKey e))
  | .ok _ =>
    match config.signers.mapM wallet with
    | .error e => .error (.error (.loadSignerKey e))
    | .ok signers => .ok (settings, signers)

/-- `main`, up to its first wait. -/
def begin : Phase :=
  match config.load wallet profile with
  | .error e => .ended (some e)
  | .ok (settings, signers) =>
    .running settings signers (if config.authorizeSigners then .fetching else .reading)

def expectedAllowance : Outcome StartError U128 :=
  plainMul profile (config.grtAllowance.setWidth 128) grt

/-- What follows from the allowance that was read. -/
def compareAllowance (allowance : U128) : Outcome StartError Stage := do
  let expectedAllowance ← config.expectedAllowance profile
  if allowance.toNat < expectedAllowance.toNat then
    if config.dryRun then return .cycling else return .approving expectedAllowance
  else return .cycling

end Config

/-- The contracts and the process, what it has sent so far, and what of it was not executed. -/
structure Process (σ : Type) where
  state : σ
  phase : Phase
  sent : List Sent
  unexecuted : List Sent

namespace Process

variable {σ : Type}

/-- Before the first start. -/
def idle (state : σ) : Process σ := ⟨state, .ended none, [], []⟩

/-- Whatever the reply is, a transaction has been executed by then or it has not. -/
inductive Sends (contracts : OnChain σ) (sent : Sent) (process : Process σ) : Process σ → Prop
  | executed {state : σ} : contracts.executes sent process.state state →
      Sends contracts sent process { process with state, sent := process.sent ++ [sent] }
  | unexecuted : Sends contracts sent process
      { process with sent := process.sent ++ [sent], unexecuted := sent :: process.unexecuted }

section Step

variable (contracts : OnChain σ) (elsewhere : σ → σ → Prop) (listed : σ → List Address → Prop)
  (config : Config) (wallet : B256 → Except String Address) (profile : Profile)

inductive Step (process : Process σ) : Process σ → Prop
  | elsewhere {state : σ} : elsewhere process.state state → Step process { process with state }
  /-- What was not executed may be so later. -/
  | late {before after : List Sent} {sent : Sent} {state : σ} :
      process.unexecuted = before ++ sent :: after →
      contracts.executes sent process.state state →
      Step process { process with state, unexecuted := before ++ after }
  /-- The process is killed, or ends after its start. -/
  | exit : Step process { process with phase := .ended none }
  | start {reason : Option (Failure StartError)} : process.phase = .ended reason →
      Step process { process with phase := config.begin wallet profile }
  | fetch {settings : Settings} {signers authorizedSigners : List Address} :
      process.phase = .running settings signers .fetching →
      listed process.state authorizedSigners →
      Step process { process with
        phase := .running settings signers (.authorizing authorizedSigners signers) }
  | fetchFails {settings : Settings} {signers : List Address} {e : String} :
      process.phase = .running settings signers .fetching →
      Step process { process with phase := .ended (some (.error (.fetchAuthorizedSigners e))) }
  | pass {settings : Settings} {signers authorizedSigners left : List Address}
      {signer : Address} :
      process.phase = .running settings signers (.authorizing authorizedSigners (signer :: left)) →
      signer ∈ authorizedSigners ∨ config.dryRun = true →
      Step process { process with
        phase := .running settings signers (.authorizing authorizedSigners left) }
  /-- A failure is only logged. -/
  | authorize {settings : Settings} {signers authorizedSigners left : List Address}
      {signer : Address} {process' : Process σ} :
      process.phase = .running settings signers (.authorizing authorizedSigners (signer :: left)) →
      signer ∉ authorizedSigners → config.dryRun = false →
      Sends contracts (.authorizeSigner signer) process process' →
      Step process { process' with
        phase := .running settings signers (.authorizing authorizedSigners left) }
  | authorized {settings : Settings} {signers authorizedSigners : List Address} :
      process.phase = .running settings signers (.authorizing authorizedSigners []) →
      Step process { process with phase := .running settings signers .reading }
  | read {settings : Settings} {signers : List Address} :
      process.phase = .running settings signers .reading →
      Step process { process with
        phase := .next settings signers
          (config.compareAllowance profile (contracts.readAllowance process.state)) }
  | readFails {settings : Settings} {signers : List Address} {e : String} :
      process.phase = .running settings signers .reading →
      Step process { process with phase := .ended (some (.error (.getAllowance e))) }
  | approve {settings : Settings} {signers : List Address} {expectedAllowance : U128}
      {process' : Process σ} :
      process.phase = .running settings signers (.approving expectedAllowance) →
      Sends contracts (.approve expectedAllowance) process process' →
      Step process { process' with phase := .running settings signers .rereading }
  | approveFails {settings : Settings} {signers : List Address} {expectedAllowance : U128}
      {process' : Process σ} {e : String} :
      process.phase = .running settings signers (.approving expectedAllowance) →
      Sends contracts (.approve expectedAllowance) process process' →
      Step process { process' with phase := .ended (some (.error (.approve e))) }
  /-- It is only logged. -/
  | reread {settings : Settings} {signers : List Address} :
      process.phase = .running settings signers .rereading →
      Step process { process with phase := .running settings signers .cycling }
  | rereadFails {settings : Settings} {signers : List Address} {e : String} :
      process.phase = .running settings signers .rereading →
      Step process { process with phase := .ended (some (.error (.getAllowance e))) }

end Step

end Process

/-! ## What is sent -/

section Load

variable {config : Config} {wallet : B256 → Except String Address} {profile : Profile}
  {signers : List Address}

/-- The allowance of the configuration is far from overflowing. -/
theorem expectedAllowance_eq (config : Config) : ∃ expected : U128,
    (∀ profile, config.expectedAllowance profile = .ok expected) ∧
    expected.toNat = config.grtAllowance.toNat * 10 ^ 18 ∧ expected.toNat < 2 ^ 128 - 1 := by
  have hgrt := config.grtAllowance.isLt
  have hwide : (config.grtAllowance.setWidth 128).toNat = config.grtAllowance.toNat := by
    rw [BitVec.toNat_setWidth, Nat.mod_eq_of_lt (by omega)]
  have hfits : (config.grtAllowance.setWidth 128).toNat * grt.toNat < 2 ^ 128 := by
    rw [hwide, grt_toNat]
    omega
  have hvalue : (config.grtAllowance.setWidth 128 * grt).toNat =
      config.grtAllowance.toNat * 10 ^ 18 := by
    rw [toNat_mul_of_fits hfits, hwide, grt_toNat]
  refine ⟨config.grtAllowance.setWidth 128 * grt, fun profile ↦ plainMul_of_fits profile hfits,
    hvalue, ?_⟩
  calc (config.grtAllowance.setWidth 128 * grt).toNat
      = config.grtAllowance.toNat * 10 ^ 18 := hvalue
    _ < 2 ^ 64 * 10 ^ 18 := Nat.mul_lt_mul_of_pos_right hgrt (by decide)
    _ < 2 ^ 128 - 1 := by decide

/-- An allowance that reads as too low is too low. -/
theorem OnChain.readAllowance_lt_iff {σ : Type} {contracts : OnChain σ} {state : σ}
    {amount : U128} (hamount : amount.toNat < 2 ^ 128 - 1) :
    (contracts.readAllowance state).toNat < amount.toNat ↔
      (contracts.allowance state).toNat < amount.toNat := by
  unfold OnChain.readAllowance
  split
  · rename_i hfits
    rw [BitVec.toNat_setWidth, Nat.mod_eq_of_lt hfits]
  · rw [BitVec.toNat_allOnes]
    omega

/-- A start that gets to its first wait has loaded the signers of the configuration. -/
theorem Config.begin_eq (config : Config) (profile : Profile)
    (hload : config.signers.mapM wallet = .ok signers) :
    (∃ reason, config.begin wallet profile = .ended reason) ∨
      ∃ settings, config.begin wallet profile =
        .running settings signers (if config.authorizeSigners then .fetching else .reading) := by
  unfold Config.begin Config.load
  rw [hload]
  rcases hcheck : config.check profile with e | settings
  · exact .inl ⟨_, rfl⟩
  · rcases hpayer : wallet config.secretKey with e | payer
    · exact .inl ⟨_, rfl⟩
    · exact .inr ⟨settings, rfl⟩

/-- After the allowance was read, it is approved again or the cycles begin. -/
theorem Config.compareAllowance_eq {expected : Nat}
    (hexpected : config.grtAllowance.toNat * 10 ^ 18 = expected) {σ : Type}
    (contracts : OnChain σ) (state : σ) :
    config.compareAllowance profile (contracts.readAllowance state) = .ok .cycling ∨
      ∃ amount, config.compareAllowance profile (contracts.readAllowance state) =
          .ok (.approving amount) ∧
        amount.toNat = expected ∧ (contracts.allowance state).toNat < expected ∧
        config.dryRun = false := by
  obtain ⟨amount, hamount, hvalue, hsmall⟩ := expectedAllowance_eq config
  unfold Config.compareAllowance
  rw [hamount]
  by_cases hlow : (contracts.readAllowance state).toNat < amount.toNat
  · have hbelow := (OnChain.readAllowance_lt_iff hsmall).mp hlow
    cases hdry : config.dryRun with
    | true => exact .inl (if_pos hlow)
    | false => exact .inr ⟨amount, if_pos hlow, by omega, by omega, rfl⟩
  · exact .inl (if_neg hlow)

end Load

/-! ## What may happen to the contracts -/

section Settles

variable {σ : Type} {contracts : OnChain σ} {signers : List Address} {expected : Nat}
  {before after : σ}

/-- Signers are only added, and of the given ones; the allowance is only raised to the given. -/
structure Settles (contracts : OnChain σ) (signers : List Address) (expected : Nat)
    (before after : σ) : Prop where
  kept : contracts.signers before ⊆ contracts.signers after
  added : ∀ signer ∈ contracts.signers after, signer ∈ contracts.signers before ∨ signer ∈ signers
  allowance : (contracts.allowance after).toNat ≤ (contracts.allowance before).toNat ∨
    (contracts.allowance before).toNat ≤ expected ∧ (contracts.allowance after).toNat = expected

theorem Settles.refl (state : σ) : Settles contracts signers expected state state where
  kept := Finset.Subset.refl _
  added _ hsigner := .inl hsigner
  allowance := .inl (Nat.le_refl _)

theorem Settles.of_spends {elsewhere : σ → σ → Prop} (h : contracts.Spends elsewhere)
    (hmove : elsewhere before after) : Settles contracts signers expected before after := by
  obtain ⟨hsigners, hallowance⟩ := h before after hmove
  refine ⟨hsigners.ge, fun signer hsigner ↦ .inl ?_, .inl hallowance⟩
  rwa [hsigners] at hsigner

/-- A transaction that a start may send. -/
def Sent.Fits (contracts : OnChain σ) (signers : List Address) (expected : Nat) (state : σ) :
    Sent → Prop
  | authorizeSigner signer => signer ∈ signers
  | approve amount => amount.toNat = expected ∧ (contracts.allowance state).toNat ≤ expected

theorem Sent.Fits.mono {sent : Sent} (h : sent.Fits contracts signers expected before)
    (hsettles : Settles contracts signers expected before after) :
    sent.Fits contracts signers expected after := by
  cases sent with
  | authorizeSigner signer => exact h
  | approve amount =>
    obtain ⟨hamount, hle⟩ := h
    refine ⟨hamount, ?_⟩
    rcases hsettles.allowance with hlower | ⟨-, hraised⟩
    · exact hlower.trans hle
    · exact hraised.le

theorem Settles.of_executes (h : contracts.Executes) {sent : Sent}
    (hfits : sent.Fits contracts signers expected before)
    (hexecutes : contracts.executes sent before after) :
    Settles contracts signers expected before after ∧
      ∀ signer, sent = .authorizeSigner signer → signer ∈ contracts.signers after := by
  cases sent with
  | authorizeSigner signer =>
    obtain ⟨hsigners, hallowance⟩ := h.authorizes hexecutes
    refine ⟨⟨?_, ?_, .inl (hallowance ▸ Nat.le_refl _)⟩, ?_⟩
    · rw [hsigners]
      exact Finset.subset_insert _ _
    · intro other hother
      rw [hsigners] at hother
      rcases Finset.mem_insert.mp hother with rfl | hother
      · exact .inr hfits
      · exact .inl hother
    · intro other hother
      obtain rfl := Sent.authorizeSigner.inj hother
      rw [hsigners]
      exact Finset.mem_insert_self _ _
  | approve amount =>
    obtain ⟨hsigners, hallowance⟩ := h.approves hexecutes
    obtain ⟨hamount, hle⟩ := hfits
    have hword := amount.isLt
    have hraised : (contracts.allowance after).toNat = expected := by
      rw [hallowance, BitVec.toNat_setWidth, Nat.mod_eq_of_lt (by omega), hamount]
    refine ⟨⟨hsigners.ge, fun signer hsigner ↦ .inl ?_, .inr ⟨hle, hraised⟩⟩, fun _ h ↦ nomatch h⟩
    rwa [hsigners] at hsigner

end Settles

/-! ## What every start keeps -/

namespace Process

variable {σ : Type}

/-- A signer is authorized, or was to be by a transaction that has not been executed. -/
def Asked (contracts : OnChain σ) (process : Process σ) (signer : Address) : Prop :=
  signer ∈ contracts.signers process.state ∨ .authorizeSigner signer ∈ process.unexecuted

/-- What a start knows where it is. -/
def StageHolds (contracts : OnChain σ) (config : Config) (signers : List Address)
    (expected : Nat) (process : Process σ) : Stage → Prop
  | .fetching => True
  | .authorizing authorizedSigners left =>
      (∀ signer ∈ authorizedSigners, signer ∈ contracts.signers process.state) ∧
      (∀ signer ∈ left, signer ∈ signers) ∧
      (config.dryRun = false → ∀ signer ∈ signers, signer ∈ left ∨ process.Asked contracts signer)
  | .approving amount => (config.authorizeSigners = true → config.dryRun = false →
      ∀ signer ∈ signers, process.Asked contracts signer) ∧ config.dryRun = false ∧
      (Sent.approve amount).Fits contracts signers expected process.state
  | .reading | .rereading | .cycling => config.authorizeSigners = true → config.dryRun = false →
      ∀ signer ∈ signers, process.Asked contracts signer

/-- The invariant of the process and the contracts. -/
structure Kept (contracts : OnChain σ) (config : Config) (signers : List Address) (expected : Nat)
    (initial : σ) (process : Process σ) : Prop where
  kept : contracts.signers initial ⊆ contracts.signers process.state
  added : ∀ signer ∈ contracts.signers process.state,
    signer ∈ contracts.signers initial ∨ signer ∈ signers
  allowance_le : (contracts.allowance process.state).toNat ≤
    max (contracts.allowance initial).toNat expected
  unexecuted : ∀ sent ∈ process.unexecuted, sent.Fits contracts signers expected process.state
  dryRun : config.dryRun = true → process.sent = []
  stage : ∀ settings loaded stage, process.phase = .running settings loaded stage →
    loaded = signers ∧ process.StageHolds contracts config signers expected stage

section Kept

variable {contracts : OnChain σ} {config : Config} {signers : List Address} {expected : Nat}
  {initial : σ} {process process' : Process σ}

-- A stage rests on what is asked for and on an allowance that is not above the configured one.
theorem StageHolds.mono {stage : Stage}
    (h : process.StageHolds contracts config signers expected stage)
    (hsettles : Settles contracts signers expected process.state process'.state)
    (hasked : ∀ signer, process.Asked contracts signer → process'.Asked contracts signer) :
    process'.StageHolds contracts config signers expected stage := by
  cases stage with
  | fetching => trivial
  | authorizing authorizedSigners left =>
    obtain ⟨hlisted, hleft, hall⟩ := h
    refine ⟨fun signer hsigner ↦ hsettles.kept (hlisted signer hsigner), hleft, ?_⟩
    intro hdry signer hsigner
    exact (hall hdry signer hsigner).imp_right (hasked signer)
  | approving amount =>
    obtain ⟨hall, hdry, hfits⟩ := h
    refine ⟨fun hauthorize hdry signer hsigner ↦ ?_, hdry, hfits.mono hsettles⟩
    exact hasked signer (hall hauthorize hdry signer hsigner)
  | reading | rereading | cycling =>
    intro hauthorize hdry signer hsigner
    exact hasked signer (h hauthorize hdry signer hsigner)

/-- Whatever is executed or spent. -/
theorem Kept.evolve (h : process.Kept contracts config signers expected initial)
    (hphase : process'.phase = process.phase)
    (hsettles : Settles contracts signers expected process.state process'.state)
    (hasked : ∀ signer, process.Asked contracts signer → process'.Asked contracts signer)
    (hunexecuted : ∀ sent ∈ process'.unexecuted,
      sent.Fits contracts signers expected process.state)
    (hdry : config.dryRun = true → process'.sent = []) :
    process'.Kept contracts config signers expected initial where
  kept := h.kept.trans hsettles.kept
  added signer hsigner := by
    rcases hsettles.added signer hsigner with hbefore | hadded
    · exact h.added signer hbefore
    · exact .inr hadded
  allowance_le := by
    have hle := h.allowance_le
    rcases hsettles.allowance with hlower | ⟨-, hraised⟩ <;> omega
  unexecuted sent hmem := (hunexecuted sent hmem).mono hsettles
  dryRun := hdry
  stage settings loaded stage hrunning := by
    obtain ⟨hloaded, hholds⟩ := h.stage settings loaded stage (hphase ▸ hrunning)
    exact ⟨hloaded, hholds.mono hsettles hasked⟩

/-- A step of the process alone. -/
theorem Kept.advance (h : process.Kept contracts config signers expected initial) {phase : Phase}
    (hstage : ∀ settings loaded stage, phase = .running settings loaded stage →
      loaded = signers ∧ process.StageHolds contracts config signers expected stage) :
    { process with phase }.Kept contracts config signers expected initial :=
  ⟨h.kept, h.added, h.allowance_le, h.unexecuted, h.dryRun, hstage⟩

theorem Kept.moves (h : process.Kept contracts config signers expected initial)
    {settings : Settings} {stage : Stage}
    (hholds : process.StageHolds contracts config signers expected stage) :
    { process with phase := .running settings signers stage }.Kept contracts config signers
      expected initial := by
  refine h.advance fun settings' loaded stage' hrunning ↦ ?_
  obtain ⟨-, rfl, rfl⟩ := Phase.running.inj hrunning
  exact ⟨rfl, hholds⟩

theorem Kept.ends (h : process.Kept contracts config signers expected initial)
    (reason : Option (Failure StartError)) :
    { process with phase := .ended reason }.Kept contracts config signers expected initial :=
  h.advance fun _ _ _ hrunning ↦ nomatch hrunning

/-- Sending keeps it, and leaves nobody out that is to be authorized. -/
theorem Kept.sends (h : process.Kept contracts config signers expected initial)
    (hexecutes : contracts.Executes) (hdry : config.dryRun = false) {sent : Sent}
    (hfits : sent.Fits contracts signers expected process.state)
    (hsends : Sends contracts sent process process') :
    process'.Kept contracts config signers expected initial ∧
      Settles contracts signers expected process.state process'.state ∧
      (∀ signer, process.Asked contracts signer → process'.Asked contracts signer) ∧
      ∀ signer, sent = .authorizeSigner signer → process'.Asked contracts signer := by
  have hnotDry : ∀ {sent : List Sent}, config.dryRun = true → sent = [] := by
    intro sent hdryRun
    rw [hdry] at hdryRun
    cases hdryRun
  cases hsends with
  | executed hexecuted =>
    obtain ⟨hsettles, hauthorized⟩ := Settles.of_executes hexecutes hfits hexecuted
    have hasked : ∀ signer, process.Asked contracts signer →
        signer ∈ contracts.signers _ ∨ .authorizeSigner signer ∈ process.unexecuted :=
      fun signer ↦ Or.imp_left (fun hsigner ↦ hsettles.kept hsigner)
    exact ⟨h.evolve rfl hsettles hasked h.unexecuted hnotDry, hsettles, hasked,
      fun signer hsigner ↦ .inl (hauthorized signer hsigner)⟩
  | unexecuted =>
    have hasked : ∀ signer, process.Asked contracts signer →
        signer ∈ contracts.signers process.state ∨
          .authorizeSigner signer ∈ sent :: process.unexecuted :=
      fun signer ↦ Or.imp_right (List.mem_cons_of_mem _)
    refine ⟨h.evolve rfl (.refl _) hasked ?_ hnotDry, .refl _, hasked, ?_⟩
    · exact List.forall_mem_cons.mpr ⟨hfits, h.unexecuted⟩
    · intro signer hsigner
      exact .inr (hsigner ▸ List.mem_cons_self)

/-- What is executed late may still be executed, and its signer has not been left out. -/
theorem Kept.late (h : process.Kept contracts config signers expected initial)
    (hexecutes : contracts.Executes) {before after : List Sent} {sent : Sent} {state : σ}
    (hsplit : process.unexecuted = before ++ sent :: after)
    (hexecuted : contracts.executes sent process.state state) :
    { process with state, unexecuted := before ++ after }.Kept contracts config signers expected
        initial ∧
      Settles contracts signers expected process.state state := by
  have hfits := h.unexecuted sent (by simp [hsplit])
  obtain ⟨hsettles, hauthorized⟩ := Settles.of_executes hexecutes hfits hexecuted
  have hleft : ∀ sent ∈ before ++ after, sent ∈ process.unexecuted := by
    intro sent hmem
    rw [hsplit]
    exact ((List.sublist_cons_self _ after).append_left before).subset hmem
  have hasked : ∀ signer, process.Asked contracts signer →
      signer ∈ contracts.signers state ∨ .authorizeSigner signer ∈ before ++ after := by
    intro signer hsigner
    rcases hsigner with hsigner | hwaiting
    · exact .inl (hsettles.kept hsigner)
    · rw [hsplit] at hwaiting
      rcases List.mem_append.mp hwaiting with hbefore | hrest
      · exact .inr (List.mem_append_left _ hbefore)
      · rcases List.mem_cons.mp hrest with hthis | hafter
        · exact .inl (hauthorized signer hthis.symm)
        · exact .inr (List.mem_append_right _ hafter)
  refine ⟨h.evolve rfl hsettles hasked ?_ h.dryRun, hsettles⟩
  show ∀ sent ∈ before ++ after, sent.Fits contracts signers expected process.state
  intro sent hmem
  exact h.unexecuted sent (hleft sent hmem)

-- One signer of the loop is done with, the others are still to come or have been.
theorem asked_of_cons {signer other : Address} {left : List Address}
    (hthis : process'.Asked contracts signer)
    (hstill : process.Asked contracts other → process'.Asked contracts other)
    (h : other ∈ signer :: left ∨ process.Asked contracts other) :
    other ∈ left ∨ process'.Asked contracts other := by
  rcases h with hmem | hasked
  · rcases List.mem_cons.mp hmem with rfl | hmem
    · exact .inr hthis
    · exact .inl hmem
  · exact .inr (hstill hasked)

variable {elsewhere : σ → σ → Prop} {listed : σ → List Address → Prop}
  {wallet : B256 → Except String Address} {profile : Profile}

/-- Every step keeps it, and does to the contracts only what may happen to them. -/
theorem Kept.step (h : process.Kept contracts config signers expected initial)
    (hexecutes : contracts.Executes) (hspends : contracts.Spends elsewhere)
    (hlists : contracts.Lists listed) (hload : config.signers.mapM wallet = .ok signers)
    (hexpected : config.grtAllowance.toNat * 10 ^ 18 = expected)
    (hstep : Step contracts elsewhere listed config wallet profile process process') :
    process'.Kept contracts config signers expected initial ∧
      Settles contracts signers expected process.state process'.state := by
  cases hstep with
  | elsewhere hmove =>
    have hsettles : Settles contracts signers expected process.state _ := .of_spends hspends hmove
    have hasked : ∀ signer, process.Asked contracts signer →
        signer ∈ contracts.signers _ ∨ .authorizeSigner signer ∈ process.unexecuted :=
      fun signer ↦ Or.imp_left (fun hsigner ↦ hsettles.kept hsigner)
    exact ⟨h.evolve rfl hsettles hasked h.unexecuted h.dryRun, hsettles⟩
  | late hsplit hexecuted => exact h.late hexecutes hsplit hexecuted
  | exit => exact ⟨h.ends none, .refl _⟩
  | start hended =>
    refine ⟨h.advance ?_, .refl _⟩
    intro settings loaded stage hrunning
    rcases config.begin_eq profile hload with ⟨reason, hbegin⟩ | ⟨settings', hbegin⟩
    · rw [hbegin] at hrunning
      cases hrunning
    · rw [hbegin] at hrunning
      obtain ⟨-, rfl, rfl⟩ := Phase.running.inj hrunning
      refine ⟨rfl, ?_⟩
      cases hauthorize : config.authorizeSigners with
      | true => trivial
      | false =>
        intro hauthorizes
        rw [hauthorize] at hauthorizes
        cases hauthorizes
  | @fetch settings loaded authorizedSigners hphase hlisted =>
    obtain ⟨rfl, -⟩ := h.stage _ _ _ hphase
    refine ⟨h.moves ⟨hlists _ _ hlisted, fun _ hsigner ↦ hsigner, ?_⟩, .refl _⟩
    exact fun _ _ hsigner ↦ .inl hsigner
  | @pass settings loaded authorizedSigners left signer hphase hpassed =>
    obtain ⟨rfl, hlisted, hleft, hall⟩ := h.stage _ _ _ hphase
    obtain ⟨-, hrest⟩ := List.forall_mem_cons.mp hleft
    refine ⟨h.moves ⟨hlisted, hrest, fun hdry other hother ↦ ?_⟩, .refl _⟩
    have hin : signer ∈ authorizedSigners := hpassed.resolve_right (by simp [hdry])
    have hthis : process.Asked contracts signer := .inl (hlisted signer hin)
    exact asked_of_cons hthis id (hall hdry other hother)
  | @authorize settings loaded authorizedSigners left signer process' hphase _ hdry hsends =>
    obtain ⟨rfl, hlisted, hleft, hall⟩ := h.stage _ _ _ hphase
    obtain ⟨hsigner, hrest⟩ := List.forall_mem_cons.mp hleft
    have hfits : (Sent.authorizeSigner signer).Fits contracts loaded expected process.state :=
      hsigner
    obtain ⟨hkept, hsettles, hstill, hthis⟩ := h.sends hexecutes hdry hfits hsends
    refine ⟨hkept.moves ⟨fun other hin ↦ hsettles.kept (hlisted other hin), hrest, ?_⟩, hsettles⟩
    intro _ other hother
    exact asked_of_cons (hthis signer rfl) (hstill other) (hall hdry other hother)
  | authorized hphase =>
    obtain ⟨rfl, -, -, hall⟩ := h.stage _ _ _ hphase
    refine ⟨h.moves ?_, .refl _⟩
    intro _ hdry signer hsigner
    exact (hall hdry signer hsigner).resolve_left List.not_mem_nil
  | read hphase =>
    obtain ⟨rfl, hall⟩ := h.stage _ _ _ hphase
    refine ⟨?_, .refl _⟩
    rcases config.compareAllowance_eq hexpected contracts process.state with
      hcycling | ⟨amount, hlow, hamount, hlt, hdry⟩
    · rw [hcycling]
      exact h.moves hall
    · rw [hlow]
      exact h.moves ⟨hall, hdry, hamount, hlt.le⟩
  | @approve settings loaded amount process' hphase hsends =>
    obtain ⟨rfl, hall, hdry, hfits⟩ := h.stage _ _ _ hphase
    obtain ⟨hkept, hsettles, hstill, -⟩ := h.sends hexecutes hdry hfits hsends
    refine ⟨hkept.moves fun hauthorize hdry signer hsigner ↦ ?_, hsettles⟩
    exact hstill signer (hall hauthorize hdry signer hsigner)
  | @approveFails settings loaded amount process' e hphase hsends =>
    obtain ⟨rfl, -, hdry, hfits⟩ := h.stage _ _ _ hphase
    obtain ⟨hkept, hsettles, -⟩ := h.sends hexecutes hdry hfits hsends
    exact ⟨hkept.ends _, hsettles⟩
  | reread hphase =>
    obtain ⟨rfl, hall⟩ := h.stage _ _ _ hphase
    exact ⟨h.moves hall, .refl _⟩
  | fetchFails _ | readFails _ | rereadFails _ => exact ⟨h.ends _, .refl _⟩

theorem Kept.start (state : σ) : (idle state).Kept contracts config signers expected state where
  kept := Finset.Subset.refl _
  added _ hsigner := .inl hsigner
  allowance_le := Nat.le_max_left _ _
  unexecuted _ hmem := absurd hmem List.not_mem_nil
  dryRun _ := rfl
  stage _ _ _ hrunning := nomatch hrunning

theorem Kept.run (h : process.Kept contracts config signers expected initial)
    (hexecutes : contracts.Executes) (hspends : contracts.Spends elsewhere)
    (hlists : contracts.Lists listed) (hload : config.signers.mapM wallet = .ok signers)
    (hexpected : config.grtAllowance.toNat * 10 ^ 18 = expected)
    (hrun : Relation.ReflTransGen
      (Step contracts elsewhere listed config wallet profile) process process') :
    process'.Kept contracts config signers expected initial := by
  induction hrun with
  | refl => exact h
  | tail _ hstep ih => exact (ih.step hexecutes hspends hlists hload hexpected hstep).1

/-! ## Once everybody is authorized -/

/-- At some time since, the allowance was below the configured one. -/
def Lowered (contracts : OnChain σ) (expected : Nat) (Reaches : Process σ → Process σ → Prop)
    (earlier process : Process σ) : Prop :=
  ∃ between, Reaches earlier between ∧ Reaches between process ∧
    (contracts.allowance between.state).toNat < expected

/-- Nobody is to be authorized again, and nothing is approved unless it has to be. -/
def PhaseQuiet (low : Prop) : Phase → Prop
  | .running _ _ (.authorizing authorizedSigners left) =>
    ∀ signer ∈ left, signer ∈ authorizedSigners
  | .running _ _ (.approving _) => low
  | _ => True

/-- Only approvals have been sent since, and only because the allowance was low. -/
structure Quiet (contracts : OnChain σ) (signers : List Address) (expected : Nat) (low : Prop)
    (earlier : List Sent) (process : Process σ) : Prop where
  authorized : ∀ signer ∈ signers, signer ∈ contracts.signers process.state
  phase : PhaseQuiet low process.phase
  sent : ∃ later, process.sent = earlier ++ later ∧
    (∀ sent ∈ later, ∃ amount, sent = .approve amount ∧ amount.toNat = expected) ∧
    (later ≠ [] → low)

theorem PhaseQuiet.mono {low low' : Prop} {phase : Phase} (h : PhaseQuiet low phase)
    (hgrows : low → low') : PhaseQuiet low' phase := by
  rcases phase with _ | ⟨_, _, _ | _ | _ | _ | _ | _⟩
  · trivial
  · trivial
  · exact h
  · trivial
  · exact hgrows h
  · trivial
  · trivial

theorem Quiet.sends {low low' : Prop} {earlier : List Sent}
    (h : process.Quiet contracts signers expected low earlier) {amount : U128}
    (hamount : amount.toNat = expected) (hlow : low')
    (hsends : Sends contracts (.approve amount) process process') :
    ∃ later, process'.sent = earlier ++ later ∧
      (∀ sent ∈ later, ∃ amount, sent = .approve amount ∧ amount.toNat = expected) ∧
      (later ≠ [] → low') := by
  obtain ⟨later, hsent, happrovals, -⟩ := h.sent
  have hafter : process'.sent = process.sent ++ [.approve amount] := by cases hsends <;> rfl
  refine ⟨later ++ [.approve amount], ?_, ?_, fun _ ↦ hlow⟩
  · rw [hafter, hsent, List.append_assoc]
  · intro sent hmem
    rcases List.mem_append.mp hmem with hmem | hmem
    · exact happrovals sent hmem
    · exact ⟨amount, List.mem_singleton.mp hmem, hamount⟩

theorem Quiet.step {low low' : Prop} {earlier : List Sent}
    (h : process.Quiet contracts signers expected low earlier)
    (hkept : process.Kept contracts config signers expected initial)
    (hsettles : Settles contracts signers expected process.state process'.state)
    (hload : config.signers.mapM wallet = .ok signers)
    (hexpected : config.grtAllowance.toNat * 10 ^ 18 = expected) (hgrows : low → low')
    (hbelow : (contracts.allowance process.state).toNat < expected → low')
    (hstep : Step contracts elsewhere (contracts.ListsAll listed) config wallet profile process
      process') :
    process'.Quiet contracts signers expected low' earlier := by
  have hauthorized : ∀ signer ∈ signers, signer ∈ contracts.signers process'.state :=
    fun signer hsigner ↦ hsettles.kept (h.authorized signer hsigner)
  obtain ⟨later, hsent, happrovals, hlow⟩ := h.sent
  have hstill : ∃ later, process.sent = earlier ++ later ∧
      (∀ sent ∈ later, ∃ amount, sent = .approve amount ∧ amount.toNat = expected) ∧
      (later ≠ [] → low') := ⟨later, hsent, happrovals, fun hne ↦ hgrows (hlow hne)⟩
  have hphase := h.phase
  cases hstep with
  | elsewhere _ | late _ _ => exact ⟨hauthorized, hphase.mono hgrows, hstill⟩
  | exit | fetchFails _ | readFails _ | rereadFails _ | authorized _ | reread _ =>
    exact ⟨hauthorized, trivial, hstill⟩
  | start _ =>
    refine ⟨hauthorized, ?_, hstill⟩
    rcases config.begin_eq profile hload with ⟨_, hbegin⟩ | ⟨_, hbegin⟩
    · rw [hbegin]
      trivial
    · rw [hbegin]
      cases config.authorizeSigners <;> trivial
  | @fetch settings loaded authorizedSigners hfetching hlisted =>
    obtain ⟨rfl, -⟩ := hkept.stage _ _ _ hfetching
    exact ⟨hauthorized, fun signer hsigner ↦ hlisted.2 signer (h.authorized signer hsigner), hstill⟩
  | @pass settings loaded authorizedSigners left signer hauthorizing _ =>
    rw [hauthorizing] at hphase
    exact ⟨hauthorized, (List.forall_mem_cons.mp hphase).2, hstill⟩
  | @authorize settings loaded authorizedSigners left signer process' hauthorizing hunlisted =>
    rw [hauthorizing] at hphase
    exact absurd (hphase signer List.mem_cons_self) hunlisted
  | @read settings loaded hreading =>
    rcases config.compareAllowance_eq hexpected contracts process.state with
      hcycling | ⟨amount, happrove, -, hlt, -⟩
    · rw [hcycling] at hauthorized ⊢
      exact ⟨hauthorized, trivial, hstill⟩
    · rw [happrove] at hauthorized ⊢
      exact ⟨hauthorized, hbelow hlt, hstill⟩
  | @approve settings loaded amount process' happroving hsends =>
    rw [happroving] at hphase
    obtain ⟨-, -, -, hamount, -⟩ := hkept.stage _ _ _ happroving
    have hsent := h.sends hamount (hgrows hphase) hsends
    exact ⟨hauthorized, trivial, hsent⟩
  | @approveFails settings loaded amount process' e happroving hsends =>
    rw [happroving] at hphase
    obtain ⟨-, -, -, hamount, -⟩ := hkept.stage _ _ _ happroving
    have hsent := h.sends hamount (hgrows hphase) hsends
    exact ⟨hauthorized, trivial, hsent⟩

/-- A run from an end, with everybody authorized and listed. -/
theorem Quiet.run (hkept : process.Kept contracts config signers expected initial)
    {reason : Option (Failure StartError)} (hended : process.phase = .ended reason)
    (hall : ∀ signer ∈ signers, signer ∈ contracts.signers process.state)
    (hexecutes : contracts.Executes) (hspends : contracts.Spends elsewhere)
    (hlists : contracts.Lists (contracts.ListsAll listed))
    (hload : config.signers.mapM wallet = .ok signers)
    (hexpected : config.grtAllowance.toNat * 10 ^ 18 = expected)
    (hrun : Relation.ReflTransGen
      (Step contracts elsewhere (contracts.ListsAll listed) config wallet profile) process
        process') :
    process'.Quiet contracts signers expected (Lowered contracts expected
      (Relation.ReflTransGen (Step contracts elsewhere (contracts.ListsAll listed) config wallet
        profile)) process process') process.sent := by
  have hquiet : process'.Kept contracts config signers expected initial ∧
      process'.Quiet contracts signers expected (Lowered contracts expected
        (Relation.ReflTransGen (Step contracts elsewhere (contracts.ListsAll listed) config wallet
          profile)) process process') process.sent := by
    induction hrun with
    | refl =>
      refine ⟨hkept, hall, ?_, [], (List.append_nil _).symm, ?_, fun hne ↦ absurd rfl hne⟩
      · rw [hended]
        trivial
      · exact fun _ hmem ↦ absurd hmem List.not_mem_nil
    | @tail between after hrun hstep ih =>
      obtain ⟨hkept, hsettles⟩ := ih.1.step hexecutes hspends hlists hload hexpected hstep
      refine ⟨hkept, ih.2.step ih.1 hsettles hload hexpected ?_ ?_ hstep⟩
      · intro hlow
        obtain ⟨low, hbefore, hafter, hlt⟩ := hlow
        exact ⟨low, hbefore, hafter.tail hstep, hlt⟩
      · exact fun hlt ↦ ⟨between, hrun, .single hstep, hlt⟩
  exact hquiet.2

end Kept

end Process

/-! ## Again and again -/

/-- However often the process is started and wherever it ends, signers are only added and the
allowance is only raised to the configured one, whatever the deposits spend of it; a start that
gets to its cycles leaves out nobody whose transaction was executed, and once everybody is
authorized, nothing is sent but approvals of an allowance that was too low. -/
theorem restarts_settle {σ : Type} (contracts : OnChain σ) (hexecutes : contracts.Executes)
    (elsewhere : σ → σ → Prop) (hspends : contracts.Spends elsewhere)
    (listed : σ → List Address → Prop) (hlists : contracts.Lists listed) (config : Config)
    (wallet : B256 → Except String Address) (profile : Profile) (signers : List Address)
    (hload : config.signers.mapM wallet = .ok signers) (expected : Nat)
    (hexpected : config.grtAllowance.toNat * 10 ^ 18 = expected) (initial : σ)
    (process : Process σ)
    (hrun : Relation.ReflTransGen
      (Process.Step contracts elsewhere listed config wallet profile) (.idle initial) process) :
    contracts.signers initial ⊆ contracts.signers process.state ∧
      (∀ signer ∈ contracts.signers process.state,
        signer ∈ contracts.signers initial ∨ signer ∈ signers) ∧
      (contracts.allowance process.state).toNat ≤
        max (contracts.allowance initial).toNat expected ∧
      (∀ process', Process.Step contracts elsewhere listed config wallet profile process process' →
        (contracts.allowance process'.state).toNat ≤ (contracts.allowance process.state).toNat ∨
          (contracts.allowance process'.state).toNat = expected) ∧
      (config.dryRun = true → process.sent = []) ∧
      (∀ settings loaded, process.phase = .running settings loaded .cycling →
        config.authorizeSigners = true → config.dryRun = false →
          ∀ signer ∈ signers, process.Asked contracts signer) ∧
      ∀ reason, process.phase = .ended reason →
        (∀ signer ∈ signers, signer ∈ contracts.signers process.state) →
          ∀ final, Relation.ReflTransGen (Process.Step contracts elsewhere
              (contracts.ListsAll listed) config wallet profile) process final →
            ∃ later, final.sent = process.sent ++ later ∧
              (∀ sent ∈ later, ∃ amount, sent = .approve amount ∧ amount.toNat = expected) ∧
              (later ≠ [] → Process.Lowered contracts expected (Relation.ReflTransGen
                (Process.Step contracts elsewhere (contracts.ListsAll listed) config wallet
                  profile)) process final) := by
  have hkept := (Process.Kept.start initial).run hexecutes hspends hlists hload hexpected hrun
  have hlistsAll : contracts.Lists (contracts.ListsAll listed) :=
    fun state authorizedSigners h ↦ hlists state authorizedSigners h.1
  refine ⟨hkept.kept, hkept.added, hkept.allowance_le, ?_, hkept.dryRun, ?_, ?_⟩
  · intro process' hstep
    have hsettles := (hkept.step hexecutes hspends hlists hload hexpected hstep).2
    exact hsettles.allowance.imp_right fun hraised ↦ hraised.2
  · intro settings loaded hcycling
    exact (hkept.stage _ _ _ hcycling).2
  · intro reason hended hall final hlater
    exact (Process.Quiet.run hkept hended hall hexecutes hspends hlistsAll hload hexpected
      hlater).sent

/-! ## Two starts, the first cut short -/

structure Standing where
  signers : Finset Address
  allowance : BitVec 256

def standings : OnChain Standing where
  signers := Standing.signers
  allowance := Standing.allowance
  executes
    | .authorizeSigner signer, before, after =>
      after = { before with signers := insert signer before.signers }
    | .approve amount, before, after => after = { before with allowance := amount.setWidth 256 }

theorem standings_executes : standings.Executes where
  authorizes := by
    intro signer before after h
    rw [show after = _ from h]
    exact ⟨rfl, rfl⟩
  approves := by
    intro amount before after h
    rw [show after = _ from h]
    exact ⟨rfl, rfl⟩

/-- Deposits. -/
def spending (before after : Standing) : Prop :=
  after.signers = before.signers ∧ after.allowance.toNat ≤ before.allowance.toNat

def listing (standing : Standing) (authorizedSigners : List Address) : Prop :=
  ∀ signer ∈ authorizedSigners, signer ∈ standing.signers

/-- The wallets of the first two scalars. -/
def knownWallet (key : B256) : Except String Address :=
  if key = Known.bigEndian 32 Known.Key.one.scalar.toNat then .ok Known.Key.one.address
  else if key = Known.bigEndian 32 Known.Key.two.scalar.toNat then .ok Known.Key.two.address
  else .error "invalid secret key"

def quarterSettings : Settings := ⟨.empty, 3 / 4, true, 2_500, 5 * grt⟩

theorem quarterConfig_begin : quarterConfig.begin knownWallet .debug =
    .running quarterSettings [Known.Key.two.address] .fetching := by
  unfold Config.begin Config.load
  rw [quarterConfig_check]
  rfl

abbrev QuarterStep (listed : Standing → List Address → Prop) :
    Process Standing → Process Standing → Prop :=
  Process.Step standings spending listed quarterConfig knownWallet .debug

def quarterAt (stage : Stage) (standing : Standing) (sent : List Sent) : Process Standing :=
  ⟨standing, .running quarterSettings [Known.Key.two.address] stage, sent, []⟩

theorem quarter_start {listed : Standing → List Address → Prop} {standing : Standing}
    {reason : Option (Failure StartError)} {sent : List Sent} :
    QuarterStep listed ⟨standing, .ended reason, sent, []⟩ (quarterAt .fetching standing sent) := by
  have hstep : QuarterStep listed ⟨standing, .ended reason, sent, []⟩
      ⟨standing, quarterConfig.begin knownWallet .debug, sent, []⟩ := .start rfl
  rw [quarterConfig_begin] at hstep
  exact hstep

/-- With the signer authorized. -/
def allowing (amount : U128) : Standing := ⟨{Known.Key.two.address}, amount.setWidth 256⟩

def firstSent : List Sent :=
  [.authorizeSigner Known.Key.two.address, .approve (1_000_000 * grt)]

/-- The approval is executed only after the start has given up on it. -/
def firstStart : Process Standing :=
  ⟨allowing (1_000_000 * grt), .ended (some (.error (.approve "timeout"))), firstSent, []⟩

theorem firstStart_run :
    Relation.ReflTransGen (QuarterStep listing) (.idle ⟨∅, 0⟩) firstStart := by
  have hstart : QuarterStep listing (.idle ⟨∅, 0⟩) (quarterAt .fetching ⟨∅, 0⟩ []) := quarter_start
  have hfetch : QuarterStep listing (quarterAt .fetching ⟨∅, 0⟩ [])
      (quarterAt (.authorizing [] [Known.Key.two.address]) ⟨∅, 0⟩ []) :=
    .fetch rfl fun _ hmem ↦ absurd hmem List.not_mem_nil
  have hauthorize : QuarterStep listing
      (quarterAt (.authorizing [] [Known.Key.two.address]) ⟨∅, 0⟩ [])
      (quarterAt (.authorizing [] []) (allowing 0) (firstSent.take 1)) :=
    .authorize rfl List.not_mem_nil rfl (.executed rfl)
  have hauthorized : QuarterStep listing
      (quarterAt (.authorizing [] []) (allowing 0) (firstSent.take 1))
      (quarterAt .reading (allowing 0) (firstSent.take 1)) := .authorized rfl
  have hread : QuarterStep listing (quarterAt .reading (allowing 0) (firstSent.take 1))
      (quarterAt (.approving (1_000_000 * grt)) (allowing 0) (firstSent.take 1)) := .read rfl
  have hfails : QuarterStep listing
      (quarterAt (.approving (1_000_000 * grt)) (allowing 0) (firstSent.take 1))
      ⟨allowing 0, firstStart.phase, firstSent, [.approve (1_000_000 * grt)]⟩ :=
    .approveFails rfl .unexecuted
  have hlate : QuarterStep listing
      ⟨allowing 0, firstStart.phase, firstSent, [.approve (1_000_000 * grt)]⟩ firstStart :=
    @Process.Step.late _ _ _ _ _ _ _ _ [] [] _ _ rfl rfl
  exact .head hstart (.head hfetch (.head hauthorize (.head hauthorized (.head hread
    (.head hfails (.single hlate))))))

/-- Sixty-four GRT have been deposited, so the second start approves the configured ones again. -/
def secondStart : Process Standing :=
  quarterAt .cycling (allowing (1_000_000 * grt)) (firstSent ++ [.approve (1_000_000 * grt)])

theorem secondStart_run :
    Relation.ReflTransGen (QuarterStep (standings.ListsAll listing)) firstStart secondStart := by
  have hlists : standings.ListsAll listing (allowing (999_936 * grt)) [Known.Key.two.address] := by
    refine ⟨fun _ hmem ↦ ?_, fun _ hmem ↦ ?_⟩
    · exact Finset.mem_singleton.mpr (List.mem_singleton.mp hmem)
    · exact List.mem_singleton.mpr (Finset.mem_singleton.mp hmem)
  have hdeposit : QuarterStep (standings.ListsAll listing) firstStart
      { firstStart with state := allowing (999_936 * grt) } := .elsewhere ⟨rfl, by decide⟩
  have hstart : QuarterStep (standings.ListsAll listing)
      { firstStart with state := allowing (999_936 * grt) }
      (quarterAt .fetching (allowing (999_936 * grt)) firstSent) := quarter_start
  have hfetch : QuarterStep (standings.ListsAll listing)
      (quarterAt .fetching (allowing (999_936 * grt)) firstSent)
      (quarterAt (.authorizing [Known.Key.two.address] [Known.Key.two.address])
        (allowing (999_936 * grt)) firstSent) := .fetch rfl hlists
  have hpass : QuarterStep (standings.ListsAll listing)
      (quarterAt (.authorizing [Known.Key.two.address] [Known.Key.two.address])
        (allowing (999_936 * grt)) firstSent)
      (quarterAt (.authorizing [Known.Key.two.address] []) (allowing (999_936 * grt)) firstSent) :=
    .pass rfl (.inl List.mem_cons_self)
  have hauthorized : QuarterStep (standings.ListsAll listing)
      (quarterAt (.authorizing [Known.Key.two.address] []) (allowing (999_936 * grt)) firstSent)
      (quarterAt .reading (allowing (999_936 * grt)) firstSent) := .authorized rfl
  have hread : QuarterStep (standings.ListsAll listing)
      (quarterAt .reading (allowing (999_936 * grt)) firstSent)
      (quarterAt (.approving (1_000_000 * grt)) (allowing (999_936 * grt)) firstSent) := .read rfl
  have happrove : QuarterStep (standings.ListsAll listing)
      (quarterAt (.approving (1_000_000 * grt)) (allowing (999_936 * grt)) firstSent)
      (quarterAt .rereading (allowing (1_000_000 * grt))
        (firstSent ++ [.approve (1_000_000 * grt)])) := .approve rfl (.executed rfl)
  have hreread : QuarterStep (standings.ListsAll listing)
      (quarterAt .rereading (allowing (1_000_000 * grt))
        (firstSent ++ [.approve (1_000_000 * grt)])) secondStart := .reread rfl
  exact .head hdeposit (.head hstart (.head hfetch (.head hpass (.head hauthorized (.head hread
    (.head happrove (.single hreread)))))))

/-- Something was sent again, so the allowance had been too low. -/
theorem restarts_settle_quarter : Process.Lowered standings (10 ^ 24)
    (Relation.ReflTransGen (QuarterStep (standings.ListsAll listing))) firstStart secondStart := by
  obtain ⟨-, -, -, -, -, -, hlater⟩ := restarts_settle standings standings_executes spending
    (fun _ _ h ↦ h) listing (fun _ _ h ↦ h) quarterConfig knownWallet .debug
    [Known.Key.two.address] rfl (10 ^ 24) rfl ⟨∅, 0⟩ firstStart firstStart_run
  obtain ⟨later, hsent, -, hlowered⟩ :=
    hlater _ rfl (by decide) secondStart secondStart_run
  refine hlowered fun hnone ↦ ?_
  rw [hnone] at hsent
  exact absurd (congrArg List.length hsent) (by decide)

end GraphTally.EscrowManager
