import InterfacePages.Main
import InterfacePages.Proofs.DeclarationOrder
import InterfacePages.Proofs.DocsTables
import InterfacePages.Proofs.EmittedFiles
import InterfacePages.Proofs.HookNames
import InterfacePages.Proofs.ImportLists
import InterfacePages.Proofs.ImportStatements
import InterfacePages.Proofs.InstructionTrees
import InterfacePages.Proofs.InvisibleWrappers
import InterfacePages.Proofs.LinkUnfolding
import InterfacePages.Proofs.ModuleResolving
import InterfacePages.Proofs.OutputFolders
import InterfacePages.Proofs.PageGrouping
import InterfacePages.Proofs.PatternNames
import InterfacePages.Proofs.ProgramPages
import InterfacePages.Proofs.ReorderedKeys
import InterfacePages.Proofs.SharedTypeNames
import InterfacePages.Proofs.SizeRuns
import InterfacePages.Proofs.StandIns
import InterfacePages.Proofs.StoredNames
import InterfacePages.Proofs.TemplateFilling
import InterfacePages.Proofs.TreeReading
import InterfacePages.Proofs.TypeKinds
import InterfacePages.Proofs.UnmodelledNodes
import InterfacePages.Proofs.VisitLogs
