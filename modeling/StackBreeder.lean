import StackBreeder.Main
import StackBreeder.Proofs.Breeding.Mutation
import StackBreeder.Proofs.Breeding.Recombination
import StackBreeder.Proofs.Breeding.Tournament
import StackBreeder.Proofs.CommandLine.Solution
import StackBreeder.Proofs.Evolution.Growth
import StackBreeder.Proofs.Evolution.Horizon
import StackBreeder.Proofs.Evolution.Ranking
import StackBreeder.Proofs.Evolution.Refusal
import StackBreeder.Proofs.Evolution.Vocabulary
import StackBreeder.Proofs.Machine.Application
import StackBreeder.Proofs.Machine.Fuel
import StackBreeder.Proofs.Machine.Grouping
import StackBreeder.Proofs.Machine.Magnitude
import StackBreeder.Proofs.Machine.Operation
import StackBreeder.Proofs.Program.Diagnosis
import StackBreeder.Proofs.Regression.Output
import StackBreeder.Random.Script
import StackBreeder.Tour
import StackBreeder.Proofs.CommandLine.Session
import StackBreeder.Proofs.CommandLine.Report
