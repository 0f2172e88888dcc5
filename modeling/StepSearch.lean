import StepSearch.Chromosome
import StepSearch.Chromosome.Variation
import StepSearch.CommandLine.Arguments
import StepSearch.CommandLine.Reply
import StepSearch.Failure
import StepSearch.FileStore
import StepSearch.FileStore.Chromosomes
import StepSearch.Journal
import StepSearch.Main
import StepSearch.Metric
import StepSearch.Number.Binary64
import StepSearch.Number.Numeral
import StepSearch.Number.Shortest
import StepSearch.Pool
import StepSearch.Population
import StepSearch.Population.Random
import StepSearch.Population.Sources
import StepSearch.Program
import StepSearch.Program.Reading
import StepSearch.Program.Token
import StepSearch.Proofs.Agreement
import StepSearch.Proofs.AllOrNothing
import StepSearch.Proofs.AtomicWrites
import StepSearch.Proofs.CheckedGenerations
import StepSearch.Proofs.ChromosomeText
import StepSearch.Proofs.Conservation
import StepSearch.Proofs.ConsistentSettings
import StepSearch.Proofs.CostOrder
import StepSearch.Proofs.Diagnostics
import StepSearch.Proofs.DrawRange
import StepSearch.Proofs.EarlyFailures
import StepSearch.Proofs.EliteDependence
import StepSearch.Proofs.Elitism
import StepSearch.Proofs.ExactValues
import StepSearch.Proofs.Faults
import StepSearch.Proofs.FileTrees
import StepSearch.Proofs.Generations
import StepSearch.Proofs.Grammar
import StepSearch.Proofs.Growth
import StepSearch.Proofs.InitialPopulation
import StepSearch.Proofs.Interruption
import StepSearch.Proofs.Lengths
import StepSearch.Proofs.LineEnds
import StepSearch.Proofs.MutationFitness
import StepSearch.Proofs.Mutations
import StepSearch.Proofs.Optimisation
import StepSearch.Proofs.Outcome
import StepSearch.Proofs.PoolCounts
import StepSearch.Proofs.Pools
import StepSearch.Proofs.PopulationEquality
import StepSearch.Proofs.PopulationFiles
import StepSearch.Proofs.Printing
import StepSearch.Proofs.ProgramFitness
import StepSearch.Proofs.Provenance
import StepSearch.Proofs.Ranking
import StepSearch.Proofs.RemainderPool
import StepSearch.Proofs.Repeats
import StepSearch.Proofs.Reports
import StepSearch.Proofs.Rescaling
import StepSearch.Proofs.Resumption
import StepSearch.Proofs.Rounding
import StepSearch.Proofs.Rounds
import StepSearch.Proofs.SafeGenerations
import StepSearch.Proofs.Scanning
import StepSearch.Proofs.SingleSurvivor
import StepSearch.Proofs.TokenSlices
import StepSearch.Proofs.Totality
import StepSearch.Proofs.UnitInterval
import StepSearch.Proofs.Variation
import StepSearch.Random.Draw
import StepSearch.Random.Keystream
import StepSearch.Run
import StepSearch.Session
import StepSearch.Sink
import StepSearch.Step
import StepSearch.Strategy
import StepSearch.Strategy.Gewep
import StepSearch.Strategy.Options
import StepSearch.Strategy.RandomElitist
import StepSearch.Text.Blank
import StepSearch.Text.Escaped
import StepSearch.Text.Line
import StepSearch.Text.Quoted
