import BlockMachine.Word
import BlockMachine.Capability
import BlockMachine.Scheduling

/-!
# Launch configurations

A `LaunchConfig` says how a launch works on the block machine: the lanes of a block, the number of
blocks, the emulated generation, the order of the blocks and a limit for temporary storage.

* `LaunchConfig.validate` — what every launch checks first; of two problems the one listed first
  in `ConfigProblem` wins.
* `LaunchConfig.blockLimit` — the largest number of blocks of a launch.
* `LaunchConfig.Update` — the changes that build a configuration step by step.
-/

set_option autoImplicit false

namespace BlockMachine

/-- The largest number of lanes of a block. -/
def maxThreadsPerBlock : Nat := 1024

/-- The blocks that each multiprocessor is given when no limit is set. -/
def blocksPerMultiprocessor : Nat := 10

/-- The reasons why a configuration cannot be launched. -/
inductive ConfigProblem where
  | noThreads
  | tooManyThreads (threads : Nat)
  | noMultiprocessors
  | noBlocks
  /-- The width of one launch, as opposed to the configured one. -/
  | launchWidth (threads : Nat)
  deriving DecidableEq, Repr

/-- The wording of a configuration problem. -/
def ConfigProblem.message : ConfigProblem → String
  | noThreads => "threads_per_block must be at least 1"
  | tooManyThreads threads =>
    s!"threads_per_block {threads} exceeds the maximum of {maxThreadsPerBlock}"
  | noMultiprocessors => "multiprocessor_count must be at least 1"
  | noBlocks => "max_blocks must be at least 1"
  | launchWidth threads =>
    s!"cannot launch {threads} threads per block (allowed 1..={maxThreadsPerBlock})"

/-- How a launch works on the block machine. -/
structure LaunchConfig where
  /-- Lanes of a block, which is also the width of a chunk of work. -/
  threadsPerBlock : UInt64 := 256
  /-- Emulated multiprocessors; only the default of the block limit depends on them. -/
  multiprocessors : UInt64
  /-- The largest number of blocks of a launch, if one is set. -/
  maxBlocks : Option UInt64 := none
  capability : Capability := Capability.standard
  scheduling : Scheduling := Scheduling.parallel
  /-- The largest number of bytes of one temporary buffer, if one is set. -/
  tempLimit : Option UInt64 := none
  deriving DecidableEq, Repr

namespace LaunchConfig

/-- The lanes of a block as a number. -/
def width (config : LaunchConfig) : Nat := config.threadsPerBlock.toNat

/-- The check of the geometry that every launch makes. -/
def validate (config : LaunchConfig) : Except ConfigProblem Unit :=
  if config.width = 0 then .error .noThreads
  else if maxThreadsPerBlock < config.width then .error (.tooManyThreads config.width)
  else if config.multiprocessors = 0 then .error .noMultiprocessors
  else if config.maxBlocks = some 0 then .error .noBlocks
  else .ok ()

/-- The largest number of blocks of a launch.  The default is worked out first, also when a limit
is set, so its product has to fit the word in any case. -/
def blockLimit (config : LaunchConfig) : Except Panic Nat := do
  let derived ← Word.mul blocksPerMultiprocessor config.multiprocessors.toNat
  return (config.maxBlocks.map UInt64.toNat).getD derived

/-- One change of a configuration. -/
inductive Update where
  | threadsPerBlock (threads : UInt64)
  | multiprocessors (count : UInt64)
  | maxBlocks (limit : Option UInt64)
  | capability (level : Capability)
  | scheduling (policy : Scheduling)
  | tempLimit (bytes : UInt64)

/-- The configuration after a change; it need not be valid. -/
def apply (config : LaunchConfig) : Update → LaunchConfig
  | .threadsPerBlock threads => { config with threadsPerBlock := threads }
  | .multiprocessors count => { config with multiprocessors := count }
  | .maxBlocks limit => { config with maxBlocks := limit }
  | .capability level => { config with capability := level }
  | .scheduling policy => { config with scheduling := policy }
  | .tempLimit bytes => { config with tempLimit := some bytes }

end LaunchConfig

end BlockMachine
