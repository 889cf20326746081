import TeiidSyndesis.Datasources.Definitions
import TeiidSyndesis.Library.Affixes
import TeiidSyndesis.Library.Base64
import TeiidSyndesis.Library.Catalogues
import TeiidSyndesis.Library.Descent
import TeiidSyndesis.Library.FirstOccurrences
import TeiidSyndesis.Library.Forest
import TeiidSyndesis.Library.LinkedMap
import TeiidSyndesis.Library.Milestones
import TeiidSyndesis.Library.Relations
import TeiidSyndesis.Library.Results
import TeiidSyndesis.Library.Simulation
import TeiidSyndesis.Library.SqlTokens
import TeiidSyndesis.Library.Statements
import TeiidSyndesis.Library.StripedLocks
import TeiidSyndesis.Library.Tables
import TeiidSyndesis.Library.Versions
import TeiidSyndesis.Library.ViewGrammar
import TeiidSyndesis.Model.JavaText
import TeiidSyndesis.Model.PercentEncoding
import TeiidSyndesis.OpenShift.AddedConnections
import TeiidSyndesis.OpenShift.CircularSources
import TeiidSyndesis.OpenShift.ConfiguredOnce
import TeiidSyndesis.OpenShift.ConnectionBookkeeping
import TeiidSyndesis.OpenShift.ConnectionMonitor
import TeiidSyndesis.OpenShift.ConnectionSynchronizer
import TeiidSyndesis.OpenShift.DeletedConnections
import TeiidSyndesis.OpenShift.DeletionRetry
import TeiidSyndesis.OpenShift.ExposedServices
import TeiidSyndesis.OpenShift.GeneratedJava
import TeiidSyndesis.OpenShift.IntegrationUsage
import TeiidSyndesis.OpenShift.Integrations
import TeiidSyndesis.OpenShift.KomodoNames
import TeiidSyndesis.OpenShift.LifecycleValid
import TeiidSyndesis.OpenShift.ListedConnections
import TeiidSyndesis.OpenShift.MonitorPass
import TeiidSyndesis.OpenShift.MonitoredJobs
import TeiidSyndesis.OpenShift.PublishLog
import TeiidSyndesis.OpenShift.PublishMilestones
import TeiidSyndesis.OpenShift.PublishedImage
import TeiidSyndesis.OpenShift.PublishedNames
import TeiidSyndesis.OpenShift.PublishedSettings
import TeiidSyndesis.OpenShift.PublishedVariables
import TeiidSyndesis.OpenShift.QueuedJobs
import TeiidSyndesis.OpenShift.RestartedPod
import TeiidSyndesis.OpenShift.SourceNames
import TeiidSyndesis.OpenShift.StatusAgreement
import TeiidSyndesis.OpenShift.SynchronizedConnections
import TeiidSyndesis.OpenShift.UnpublishKept
import TeiidSyndesis.OpenShift.UnpublishSettles
import TeiidSyndesis.OpenShift.UpdatedConnections
import TeiidSyndesis.OpenShift.UsedVirtualizations
import TeiidSyndesis.OpenShift.VirtualizationResources
import TeiidSyndesis.Repository.ColumnSizes
import TeiidSyndesis.Repository.RepositoryManager
import TeiidSyndesis.Repository.SharedTable
import TeiidSyndesis.Repository.UpperNames
import TeiidSyndesis.Server.ConcurrentSaves
import TeiidSyndesis.Server.DataVirtualizationService
import TeiidSyndesis.Server.DeployedOnce
import TeiidSyndesis.Server.DvServer
import TeiidSyndesis.Server.EditorService
import TeiidSyndesis.Server.ExportImport
import TeiidSyndesis.Server.Exportable
import TeiidSyndesis.Server.ImportTolerance
import TeiidSyndesis.Server.LoadedVdbs
import TeiidSyndesis.Server.NameValidation
import TeiidSyndesis.Server.PagedQueries
import TeiidSyndesis.Server.ParsableFlag
import TeiidSyndesis.Server.PreviewCoherence
import TeiidSyndesis.Server.PreviewDeployment
import TeiidSyndesis.Server.PreviewIncarnation
import TeiidSyndesis.Server.PreviewOrder
import TeiidSyndesis.Server.PublishRequests
import TeiidSyndesis.Server.PublishedMeaning
import TeiidSyndesis.Server.QueryableNodes
import TeiidSyndesis.Server.RepeatedImport
import TeiidSyndesis.Server.RepeatedSave
import TeiidSyndesis.Server.ReplayedArchives
import TeiidSyndesis.Server.ReplayedViews
import TeiidSyndesis.Server.SchemaNodes
import TeiidSyndesis.Server.SerialImports
import TeiidSyndesis.Server.SerialRuns
import TeiidSyndesis.Server.SerialSaves
import TeiidSyndesis.Server.ServiceVdbClosure
import TeiidSyndesis.Server.ServiceVdbGenerator
import TeiidSyndesis.Server.SourceAgreement
import TeiidSyndesis.Server.SourceDeployment
import TeiidSyndesis.Server.SourceInvariant
import TeiidSyndesis.Server.SourcePaths
import TeiidSyndesis.Server.SourceRest
import TeiidSyndesis.Server.SourceStatuses
import TeiidSyndesis.Server.TablePattern
import TeiidSyndesis.Server.TransactionReads
import TeiidSyndesis.Server.ValidationErrors
import TeiidSyndesis.Server.VdbDeployment
import TeiidSyndesis.Server.VdbKinds
import TeiidSyndesis.Server.VersionedSaves
import TeiidSyndesis.Server.ViewAnnotation
import TeiidSyndesis.Server.ViewColumns
import TeiidSyndesis.Server.ViewDdlStatements
import TeiidSyndesis.Server.ViewKeys
import TeiidSyndesis.Server.ViewMeaning
import TeiidSyndesis.Server.ViewRows
import TeiidSyndesis.Server.ViewScopes
import TeiidSyndesis.Server.ViewStatements
