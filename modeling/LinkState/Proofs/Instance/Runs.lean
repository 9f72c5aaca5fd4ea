import LinkState.Proofs.Flooding.Operations
import LinkState.Router

/-!
# Runs of an instance

Everything that happens to an instance is one operation after the other: a frame arrives, the
router's own LSP is renewed, an adjacency is taken over, a link is scanned, or the shortest paths
are computed, at once or by the worker that serves the waiting requests. `perform` is one operation
and `run` a row of them. A run is made of its parts (`run_append`). What an operation has to satisfy
may depend on the state in which it is performed (`Along`).
-/

namespace LinkState

/-- Putting records into spans does not change the result. -/
@[simp] theorem Traced.value_within {α : Type u} (spans : List Span) (traced : Traced α) :
    (traced.within spans).value = traced.value := rfl

/-- Putting records into spans originates nothing. -/
@[simp] theorem originations_within {α : Type u} (spans : List Span) (traced : Traced α) :
    originations (traced.within spans).records = originations traced.records := by
  unfold originations Traced.within
  rw [List.filterMap_map]
  rfl

namespace Instance

/-- An operation of an instance. -/
inductive Operation where
  /-- A frame arrives on a link. -/
  | receive (name : String) (frame : Octets)
  /-- The router's own LSP is renewed. -/
  | originate
  /-- A link takes over an adjacency from the neighbor handshake. -/
  | changeAdjacency (now : Timestamp) (name : String) (adjacency : Adjacency)
  /-- The link at a position is scanned. -/
  | scan (position : Nat)
  /-- The shortest paths are computed. -/
  | runSpf (now : Timestamp)
  /-- The shortest-path worker serves the waiting requests, a number of milliseconds after the
  start.
  -/
  | serve (clock : Nat)
deriving DecidableEq

/-- The instance after an operation. -/
def perform (inst : Instance) : Operation → Traced Instance
  | .receive name frame => Prod.snd <$> inst.receive name frame
  | .originate => Prod.snd <$> inst.originate
  | .changeAdjacency now name adjacency => Prod.snd <$> inst.changeAdjacency now name adjacency
  | .scan position => Prod.snd <$> inst.scan position
  | .runSpf now => Prod.snd <$> inst.runSpf now
  | .serve clock => Router.inst <$> Router.settle ⟨inst, clock, true⟩

/-- The instance after a row of operations. -/
def run (inst : Instance) (operations : List Operation) : Traced Instance :=
  operations.foldlM perform inst

variable {inst : Instance}

@[simp] theorem run_nil : inst.run [] = pure inst := rfl

@[simp] theorem run_cons (operation : Operation) (operations : List Operation) :
    inst.run (operation :: operations) =
      inst.perform operation >>= fun after => after.run operations := rfl

/-- A run goes on where its first part has ended. -/
theorem run_append (first second : List Operation) :
    inst.run (first ++ second) = inst.run first >>= fun after => after.run second :=
  List.foldlM_append

/-- The last operation is performed where the others have ended. -/
theorem run_concat (operations : List Operation) (operation : Operation) :
    inst.run (operations ++ [operation]) =
      inst.run operations >>= fun after => after.perform operation := by
  rw [run_append]
  refine congrArg _ (funext fun after => ?_)
  exact bind_pure (after.perform operation)

/-- Every operation of a run satisfies a condition in the state in which it is performed. -/
def Along (condition : Instance → Operation → Prop) : Instance → List Operation → Prop
  | _, [] => True
  | inst, operation :: operations =>
    condition inst operation ∧ Along condition (inst.perform operation).value operations

instance decidableAlong (condition : Instance → Operation → Prop)
    [∀ inst, DecidablePred (condition inst)] :
    ∀ inst operations, Decidable (Along condition inst operations)
  | _, [] => .isTrue trivial
  | inst, operation :: operations =>
    have := decidableAlong condition (inst.perform operation).value operations
    inferInstanceAs (Decidable (_ ∧ _))

/-- A condition that always holds does so along a run. -/
theorem along_of_forall {condition : Instance → Operation → Prop}
    (h : ∀ inst operation, condition inst operation) (operations : List Operation) :
    Along condition inst operations := by
  induction operations generalizing inst with
  | nil => trivial
  | cons operation operations ih => exact ⟨h inst operation, ih⟩

/-! ### A router with one link, and one with two -/

/-- A router with one link. -/
def single : InstanceConfig :=
  { InstanceConfig.initial with systemId := ⟨0, 0, 0, 0, 0, 1⟩, links := [⟨"e", 10, none, []⟩] }

/-- A router with two links. -/
def double : InstanceConfig :=
  { single with links := [⟨"e", 10, none, []⟩, ⟨"f", 20, none, []⟩] }

/-- The handshake with the neighbor at the other end of the first link has been completed. -/
def completed (metric : UInt32) : Operation :=
  .changeAdjacency ⟨0, 0⟩ "e" ⟨.up, some ⟨0, 0, 0, 0, 0, 2⟩, metric, none, none⟩

/-- The first LSP of the neighbor. -/
def introduction : Lsp := Lsp.ofLinks ⟨0, 0, 0, 0, 0, 2⟩ [] 1 1200

/-- The second LSP of the neighbor, which is connected to a network. -/
def connected : Lsp :=
  Lsp.originate .lspL1 1200 (.ofSystem ⟨0, 0, 0, 0, 0, 2⟩) 2 .isType1
    (Tlv.body [⟨10, ⟨0, 0, 0, 0, 0, 1⟩, 0⟩] []
      [⟨⟨⟨0x0a000000⟩, ⟨8, Nat.le_of_ble_eq_true rfl⟩⟩, 20⟩])

end Instance

end LinkState
