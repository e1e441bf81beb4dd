import WeakForm.Batch
import WeakForm.Case.Basic
import WeakForm.Case.Build
import WeakForm.Case.Error
import WeakForm.Case.Validation
import WeakForm.Case.Verification
import WeakForm.Check.Constitutive
import WeakForm.Check.Difference
import WeakForm.Check.Element
import WeakForm.Check.Result
import WeakForm.Command.Basic
import WeakForm.Command.FileTree
import WeakForm.Command.Session
import WeakForm.Command.Terminal
import WeakForm.Constitutive.Basic
import WeakForm.Constitutive.Solid
import WeakForm.Decimal.Basic
import WeakForm.Decimal.Binary64
import WeakForm.Dims
import WeakForm.Element.Basic
import WeakForm.Element.Conduction
import WeakForm.Element.Elasticity
import WeakForm.Element.Solid
import WeakForm.Error
import WeakForm.Evaluation
import WeakForm.Format.Basic
import WeakForm.Format.Case
import WeakForm.Format.Check
import WeakForm.Format.File
import WeakForm.Format.Report
import WeakForm.Format.Sample
import WeakForm.Index
import WeakForm.Jacobian
import WeakForm.Journal
import WeakForm.Json.Basic
import WeakForm.Json.Parser
import WeakForm.Json.Printer
import WeakForm.Json.Reader
import WeakForm.Main
import WeakForm.Material.Basic
import WeakForm.Material.Library
import WeakForm.Matrix3
import WeakForm.MatrixFormat
import WeakForm.Point
import WeakForm.Quantity.Basic
import WeakForm.Quantity.Registry
import WeakForm.Record
import WeakForm.Report.Basic
import WeakForm.Report.Text
import WeakForm.Sample
import WeakForm.Scalar
import WeakForm.Stiffness
import WeakForm.Stiffness.Spectrum
import WeakForm.Verification
import WeakForm.Proofs.Comparison
import WeakForm.Proofs.FloatOrder
import WeakForm.Proofs.DenseJacobian
import WeakForm.Proofs.JacobianCheck
import WeakForm.Proofs.Runs
import WeakForm.Proofs.Linearization
import WeakForm.Proofs.Conduction
import WeakForm.Proofs.Elasticity
import WeakForm.Proofs.ExactJacobian
import WeakForm.Proofs.JacobianVerdict
import WeakForm.Proofs.AdjointProduct
import WeakForm.Proofs.AdjointSums
import WeakForm.Proofs.Restoration
import WeakForm.Proofs.Outcomes
import WeakForm.Proofs.DesignVariables
import WeakForm.Proofs.QuantityDerivatives
import WeakForm.Proofs.Quantities
import WeakForm.Proofs.ElasticQuantities
import WeakForm.Proofs.FailureGradient
import WeakForm.Proofs.ThermalQuantities
import WeakForm.Proofs.ExactQuantities
import WeakForm.Proofs.ElementVerdict
import WeakForm.Proofs.ElementChecks
import WeakForm.Proofs.CaseOutcome
import WeakForm.Proofs.CaseVerdict
import WeakForm.Proofs.UndefinedErrors
import WeakForm.Proofs.Refusals
import WeakForm.Proofs.CleanModels
import WeakForm.Proofs.RecordSections
import WeakForm.Proofs.Calls
import WeakForm.Proofs.ThicknessRuns
import WeakForm.Proofs.ZeroMaterial
import WeakForm.Proofs.NumberLiterals
import WeakForm.Proofs.PrintedJson
import WeakForm.Proofs.CaseFiles
import WeakForm.Proofs.ReportFiles
import WeakForm.Proofs.VirtualWork
import WeakForm.Proofs.Compliance
import WeakForm.Proofs.EnergyConsistency
import WeakForm.Proofs.UndefinedConstants
import WeakForm.Proofs.PartialNumbers
import WeakForm.Proofs.IsotropicMaterials
import WeakForm.Proofs.FailureIndex
import WeakForm.Proofs.LawChecks
import WeakForm.Proofs.Collisions
import WeakForm.Proofs.ReportTexts
import WeakForm.Proofs.Sessions
import WeakForm.Proofs.CommandRuns
import WeakForm.Proofs.ComparedReports
import WeakForm.Proofs.ToleranceTest
import WeakForm.Proofs.NeutralZero
import WeakForm.Proofs.JacobianReaders
import WeakForm.Proofs.JacobianOverrun
import WeakForm.Proofs.ThicknessBounds
import WeakForm.Proofs.EditedRecords
import WeakForm.Proofs.EditedCases
import WeakForm.Proofs.FlagValues
import WeakForm.Proofs.IntegratedQuantities
import WeakForm.Proofs.ByteOrder
import WeakForm.Proofs.CaseMaterials
import WeakForm.Proofs.BlockAccesses
