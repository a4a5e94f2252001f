import DalvikFlow.Graph.Construction
import DalvikFlow.Graph.Dot
import DalvikFlow.Proofs.Exec.CaseTargets
import DalvikFlow.Proofs.Exec.Information
import DalvikFlow.Proofs.Exec.Switch
import DalvikFlow.Proofs.Exec.Branch
import DalvikFlow.Proofs.Exec.Nominal
import DalvikFlow.Proofs.Exec.Run
import DalvikFlow.Proofs.Exec.Literal
import DalvikFlow.Proofs.Graph.Range
import DalvikFlow.Proofs.Exec.Payload
import DalvikFlow.Proofs.Exec.Footprint
import DalvikFlow.Proofs.Exec.Assigned
import DalvikFlow.Proofs.Exec.Exit
import DalvikFlow.Proofs.Exec.Relabel
import DalvikFlow.Proofs.Graph.Recursion
import DalvikFlow.Proofs.Exec.Equipped
import DalvikFlow.Proofs.Exec.Table
import DalvikFlow.Proofs.Graph.CheckedSearch
import DalvikFlow.Proofs.Graph.CheckedConstruction
import DalvikFlow.Proofs.Graph.EarlyMarks
import DalvikFlow.Proofs.Graph.LiveChildren
import DalvikFlow.Proofs.Exec.Decision
import DalvikFlow.Proofs.Exec.Duality
import DalvikFlow.Proofs.Exec.Comparison
import DalvikFlow.Proofs.Exec.Refusal
import DalvikFlow.Proofs.Exec.PackedSwitch
import DalvikFlow.Proofs.Graph.PayloadWidth
import DalvikFlow.Proofs.Graph.Warning
import DalvikFlow.Proofs.Instruction.Text
import DalvikFlow.Proofs.Text.Label
import DalvikFlow.Proofs.Graph.Dot
import DalvikFlow.Proofs.Exec.Explore
